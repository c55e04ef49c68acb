import Courier.Payload.Value

/-!
# Services and scopes

Services are instances kept by their type. A registry shares some with everyone; a scope has its
own besides, made for one delivery. Within a scope its own instance of a type comes before the
shared one, and what is shared is looked up at the moment it is asked for.
-/

namespace Courier

/-- Instances by the name of their type, the latest of each type first. -/
structure Services where
  instances : List (String × Value) := []

namespace Services

def get? (s : Services) (type : String) : Option Value := s.instances.lookup type

def insert (s : Services) (type : String) (v : Value) : Services :=
  ⟨(type, v) :: s.instances.filter fun (t, _) => t != type⟩

def size (s : Services) : Nat := s.instances.length

end Services

/-- The instances of one scope. -/
structure Scope where
  own : Services := {}

namespace Scope

/-- The scope's own instance, or else the shared one. -/
def get? (s : Scope) (shared : Services) (type : String) : Option Value :=
  (s.own.get? type).or (shared.get? type)

def insert (s : Scope) (type : String) (v : Value) : Scope := ⟨s.own.insert type v⟩

/-- The scope's own instance, made from `v` if there is none, and whether it was made. -/
def getOrInsert (s : Scope) (type : String) (v : Value) : Scope × Value × Bool :=
  match s.own.get? type with
  | some old => (s, old, false)
  | none => (s.insert type v, v, true)

/-- How a scope describes itself. -/
def description (s : Scope) (shared : Services) : String :=
  "ServiceScope \x7b shared: " ++ toString shared.size ++ ", scoped: " ++ toString s.own.size ++
    " \x7d"

end Scope

end Courier
