import Courier.Proofs.Entries
import Courier.Registry

/-!
# Scopes of a registry

A registry shares instances with all scopes that were opened at it, and each scope has its own
besides. Instances are shared, put into a scope or made there on demand, in any order and at any
number of scopes. What a scope finds can be read off the requests that were made before
(`scopes_isolated`): the latest instance put into that scope, else the first one made there on
demand, else the latest shared one, whether or not the scope was there when it was shared.

Nothing that happens in a scope shows anywhere else. This is said of whole histories: taking the
requests to some scopes out of a history changes no answer that the other scopes or the registry
give.
-/

namespace Courier

namespace Services

@[simp] theorem get?_insert (s : Services) (type other : String) (v : Value) :
    (s.insert type v).get? other = if type = other then some v else s.get? other :=
  lookup_set s.instances type other v

end Services

/-! ## A registry with its scopes -/

/-- A registry and the scopes opened at it, in the order of their opening. -/
structure Supply where
  registry : Registry := {}
  scopes : List Scope := []

namespace Supply

/-- What is asked of a scope. -/
inductive Wish where
  | resolve (messageType : String)
  | get (type : String)
  | insert (type : String) (v : Value)
  /-- Makes the instance `v` if there is none. -/
  | getOrInsert (type : String) (v : Value)

/-- What is asked of a registry, or of one of its scopes, which go by their numbers. -/
inductive Request where
  | register (messageType : String) (p : Registration)
  | options (messageType : String)
  | names
  | provide (type : String) (v : Value)
  | openScope
  | within (scope : Nat) (w : Wish)

inductive Answer where
  | done
  | options (p : Option Registration)
  | names (all : List String)
  | opened (scope : Nat)
  | resolved (result : Except ProcessingFault Unit)
  | found (v : Option Value)
  /-- The instance, and whether it was made. -/
  | kept (v : Value) (made : Bool)
  | noScope

namespace Wish

/-- What a wish makes of the scope. -/
def act (w : Wish) (c : Scope) : Scope :=
  match w with
  | .insert type v => c.insert type v
  | .getOrInsert type v => (c.getOrInsert type v).1
  | .resolve _ | .get _ => c

def answer (r : Registry) (c : Scope) : Wish → Answer
  | .resolve messageType => .resolved (r.resolve messageType c)
  | .get type => .found (c.get? r.shared type)
  | .insert _ v => .found (some v)
  | .getOrInsert type v =>
    let (v, made) := (c.getOrInsert type v).2
    .kept v made

end Wish

def step (s : Supply) : Request → Supply × Answer
  | .register messageType p => ({ s with registry := s.registry.register messageType p }, .done)
  | .options messageType => (s, .options (s.registry.find? messageType))
  | .names => (s, .names s.registry.names)
  | .provide type v => ({ s with registry := s.registry.provide type v }, .done)
  | .openScope => ({ s with scopes := s.scopes ++ [{}] }, .opened s.scopes.length)
  | .within scope w =>
    ({ s with scopes := s.scopes.modify scope w.act },
      match s.scopes[scope]? with
      | none => .noScope
      | some c => w.answer s.registry c)

/-- A registry with its scopes after some requests. -/
def run (s : Supply) (requests : List Request) : Supply :=
  requests.foldl (fun s r => (s.step r).1) s

/-- What a request is answered after some others, at a registry that was empty at first. -/
def answer (requests : List Request) (r : Request) : Answer := ((run {} requests).step r).2

@[simp] theorem run_nil (s : Supply) : s.run [] = s := rfl

@[simp] theorem run_cons (s : Supply) (r : Request) (requests : List Request) :
    s.run (r :: requests) = (s.step r).1.run requests :=
  rfl

theorem run_concat (s : Supply) (requests : List Request) (r : Request) :
    s.run (requests ++ [r]) = ((s.run requests).step r).1 := by
  simp only [run, List.foldl_append, List.foldl_cons, List.foldl_nil]

/-! ## Reading the requests

These say what the scopes should have, from the requests alone. -/

/-- The wishes among the requests that are for one scope. -/
def wishesAt (scope : Nat) (requests : List Request) : List Wish :=
  requests.filterMap fun
    | .within n w => if n = scope then some w else none
    | _ => none

/-- The requests that came after the opening of a scope, if it was opened. -/
def since? (scope : Nat) : List Request → Option (List Request)
  | [] => none
  | .openScope :: rest => if scope = 0 then some rest else since? (scope - 1) rest
  | _ :: rest => since? scope rest

/-- The wishes at a scope, if it was opened. -/
def wishes? (scope : Nat) (requests : List Request) : Option (List Wish) :=
  (since? scope requests).map (wishesAt scope)

/-- What was put into a scope, in the order of the wishes. -/
def insertions (wishes : List Wish) : List (String × Value) :=
  wishes.filterMap fun
    | .insert type v => some (type, v)
    | _ => none

/-- What was to be made in a scope in case there was none. -/
def offers (wishes : List Wish) : List (String × Value) :=
  wishes.filterMap fun
    | .getOrInsert type v => some (type, v)
    | _ => none

/-- The own instance of a scope: the latest one put there, or else the first one offered. -/
def own? (type : String) (wishes : List Wish) : Option Value :=
  (latest? type (insertions wishes)).or ((offers wishes).lookup type)

/-- What was shared, in the order of the requests. -/
def provisions (requests : List Request) : List (String × Value) :=
  requests.filterMap fun
    | .provide type v => some (type, v)
    | _ => none

theorem wishesAt_append (scope : Nat) (requests more : List Request) :
    wishesAt scope (requests ++ more) = wishesAt scope requests ++ wishesAt scope more :=
  List.filterMap_append

theorem insertions_append (wishes more : List Wish) :
    insertions (wishes ++ more) = insertions wishes ++ insertions more :=
  List.filterMap_append

theorem offers_append (wishes more : List Wish) :
    offers (wishes ++ more) = offers wishes ++ offers more :=
  List.filterMap_append

theorem mem_wishesAt {scope : Nat} {requests : List Request} {w : Wish} :
    w ∈ wishesAt scope requests ↔ .within scope w ∈ requests := by
  rw [wishesAt, List.mem_filterMap]
  constructor
  · rintro ⟨r, mem, here⟩
    cases r with
    | within n w' =>
        obtain ⟨rfl, rfl⟩ : n = scope ∧ w' = w := by simpa using here
        exact mem
    | _ => exact nomatch here
  · intro mem
    exact ⟨_, mem, if_pos rfl⟩

theorem mem_insertions {wishes : List Wish} {type : String} {v : Value} :
    (type, v) ∈ insertions wishes ↔ .insert type v ∈ wishes := by
  rw [insertions, List.mem_filterMap]
  constructor
  · rintro ⟨w, mem, put⟩
    cases w with
    | insert other v' =>
        obtain ⟨rfl, rfl⟩ : other = type ∧ v' = v := by simpa using put
        exact mem
    | _ => exact nomatch put
  · intro mem
    exact ⟨_, mem, rfl⟩

theorem provisions_append (requests more : List Request) :
    provisions (requests ++ more) = provisions requests ++ provisions more :=
  List.filterMap_append

/-- A scope that is open stays open, and later requests follow the earlier ones. -/
theorem since?_append {scope : Nat} {requests rest : List Request}
    (opened : since? scope requests = some rest) (more : List Request) :
    since? scope (requests ++ more) = some (rest ++ more) := by
  induction requests generalizing scope with
  | nil => exact nomatch opened
  | cons r requests ih =>
      cases r with
      | openScope =>
          rw [List.cons_append, since?]
          rw [since?] at opened
          split at opened
          · rename_i first
            rw [if_pos first, Option.some.inj opened]
          · rename_i later
            rw [if_neg later]
            exact ih opened
      | register _ _ => exact ih opened
      | options _ => exact ih opened
      | names => exact ih opened
      | provide _ _ => exact ih opened
      | within _ _ => exact ih opened

theorem wishes?_append {scope : Nat} {requests : List Request} {wishes : List Wish}
    (opened : wishes? scope requests = some wishes) (more : List Request) :
    wishes? scope (requests ++ more) = some (wishes ++ wishesAt scope more) := by
  obtain ⟨rest, since, rfl⟩ := Option.map_eq_some_iff.mp opened
  rw [wishes?, since?_append since, Option.map_some, wishesAt_append]

/-! ## What a scope has -/

/-- A scope after some wishes. -/
def serve (c : Scope) (wishes : List Wish) : Scope := wishes.foldl (fun c w => w.act c) c

theorem serve_append (c : Scope) (wishes more : List Wish) :
    serve c (wishes ++ more) = serve (serve c wishes) more :=
  List.foldl_append

theorem get?_act (c : Scope) (w : Wish) (type : String) :
    (w.act c).own.get? type =
      (latest? type (insertions [w])).or ((c.own.get? type).or ((offers [w]).lookup type)) := by
  cases w with
  | resolve messageType => exact Option.or_none.symm
  | get other => exact Option.or_none.symm
  | insert other v =>
      have put : insertions [.insert other v] = [(other, v)] := rfl
      rw [Wish.act, Scope.insert, Services.get?_insert, put, latest?_singleton]
      split
      · exact Option.some_or.symm
      · exact Option.or_none.symm
  | getOrInsert other v =>
      have put : insertions [.getOrInsert other v] = [] := rfl
      have offered : offers [.getOrInsert other v] = [(other, v)] := rfl
      rw [Wish.act, Scope.getOrInsert, put, offered, latest?_nil, Option.none_or, List.lookup_cons,
        List.lookup_nil]
      by_cases same : type = other
      · subst same
        rw [beq_self_eq_true]
        cases there : c.own.get? type with
        | none => simp [Scope.insert]
        | some old => simpa using there
      · rw [beq_eq_false_iff_ne.mpr same, Option.or_none]
        cases c.own.get? other with
        | none => exact (Services.get?_insert ..).trans (if_neg (Ne.symm same))
        | some old => rfl

/-- A scope has the latest instance put there, else what it had, else the first one offered. -/
theorem get?_serve (c : Scope) (wishes : List Wish) (type : String) :
    (serve c wishes).own.get? type =
      (latest? type (insertions wishes)).or
        ((c.own.get? type).or ((offers wishes).lookup type)) := by
  induction wishes using List.reverseRecOn with
  | nil => exact Option.or_none.symm
  | append_singleton wishes w ih =>
      have served : serve c (wishes ++ [w]) = w.act (serve c wishes) := serve_append c wishes [w]
      rw [served, get?_act, ih, insertions_append, offers_append, latest?_append,
        List.lookup_append]
      simp only [Option.or_assoc]

/-! ## What the scopes are -/

variable {s : Supply} {n : Nat} {c : Scope}

theorem scopes_step (there : s.scopes[n]? = some c) (r : Request) :
    (s.step r).1.scopes[n]? = some (serve c (wishesAt n [r])) := by
  cases r with
  | openScope =>
      rw [step, List.getElem?_append_left (List.getElem?_eq_some_iff.mp there).1]
      exact there
  | within m w =>
      rw [step, List.getElem?_modify, there]
      by_cases same : m = n
      · simp [wishesAt, same, serve]
      · simp [wishesAt, same, serve]
  | register _ _ => exact there
  | options _ => exact there
  | names => exact there
  | provide _ _ => exact there

/-- What is asked of an open scope reaches it, and nothing else does. -/
theorem scopes_run (there : s.scopes[n]? = some c) (requests : List Request) :
    (s.run requests).scopes[n]? = some (serve c (wishesAt n requests)) := by
  induction requests generalizing s c with
  | nil => exact there
  | cons r requests ih =>
      rw [run_cons, ih (scopes_step there r), ← serve_append, ← wishesAt_append]
      rfl

/-- A scope that is not there yet is empty once it is opened. -/
theorem scopes_run_of_missing (missing : s.scopes.length ≤ n) (requests : List Request) :
    (s.run requests).scopes[n]? =
      (since? (n - s.scopes.length) requests).map fun rest => serve {} (wishesAt n rest) := by
  induction requests generalizing s with
  | nil => exact List.getElem?_eq_none missing
  | cons r requests ih =>
      rw [run_cons]
      cases r with
      | openScope =>
          -- The scope opened now is this one, or this one comes later and is one nearer.
          rw [since?]
          split
          · rename_i now
            have here : (s.step .openScope).1.scopes[n]? = some {} := by
              have last : n = s.scopes.length := by omega
              simp [step, last]
            exact scopes_run here requests
          · rename_i later
            have grown : (s.step .openScope).1.scopes.length = s.scopes.length + 1 := by
              simp [step]
            have still : (s.step .openScope).1.scopes.length ≤ n := by omega
            rw [ih still, grown, Nat.sub_sub]
      | within m w =>
          have kept : (s.step (.within m w)).1.scopes.length = s.scopes.length := by
            simp [step]
          rw [ih (kept ▸ missing), kept]
          rfl
      | register _ _ => exact ih missing
      | options _ => exact ih missing
      | names => exact ih missing
      | provide _ _ => exact ih missing

theorem scopes_of_wishes (n : Nat) (requests : List Request) :
    (run {} requests).scopes[n]? = (wishes? n requests).map (serve {}) := by
  have empty : ({} : Supply).scopes.length ≤ n := Nat.zero_le n
  rw [scopes_run_of_missing empty, wishes?, Option.map_map]
  rfl

/-- What is shared is the latest that was provided, whatever happened in the scopes. -/
theorem shared_run (requests : List Request) (type : String) :
    (run {} requests).registry.shared.get? type = latest? type (provisions requests) := by
  induction requests using List.reverseRecOn with
  | nil => rfl
  | append_singleton requests r ih =>
      rw [run_concat, provisions_append, latest?_append, ← ih]
      cases r with
      | provide other v =>
          have shared : provisions [.provide other v] = [(other, v)] := rfl
          rw [step, Registry.provide, Services.get?_insert, shared, latest?_singleton]
          split
          · exact Option.some_or.symm
          · exact Option.none_or.symm
      | register _ _ => rfl
      | options _ => rfl
      | names => rfl
      | openScope => rfl
      | within _ _ => rfl

/-- Any wish is answered by a scope that was opened. -/
theorem answer_within (requests : List Request) (n : Nat) (w : Wish) :
    answer requests (.within n w) = match wishes? n requests with
      | none => .noScope
      | some wishes => w.answer (run {} requests).registry (serve {} wishes) := by
  simp only [answer, step, scopes_of_wishes]
  cases wishes? n requests with
  | none => rfl
  | some wishes => rfl

/-! ## Hiding scopes -/

/-- Whether a request stays when some scopes are left out. -/
def Request.avoids (hidden : Nat → Bool) : Request → Bool
  | .within n _ => !hidden n
  | _ => true

/-- Two supplies that differ at most in some scopes. -/
structure Alike (hidden : Nat → Bool) (s s' : Supply) : Prop where
  registry : s.registry = s'.registry
  opened : s.scopes.length = s'.scopes.length
  scopes : ∀ n, hidden n = false → s.scopes[n]? = s'.scopes[n]?

variable {hidden : Nat → Bool} {s' : Supply}

theorem alike_step (alike : Alike hidden s s') {r : Request} (avoids : r.avoids hidden = true) :
    Alike hidden (s.step r).1 (s'.step r).1 := by
  obtain ⟨registry, opened, scopes⟩ := alike
  cases r with
  | register messageType p => exact ⟨congrArg (·.register messageType p) registry, opened, scopes⟩
  | provide type v => exact ⟨congrArg (·.provide type v) registry, opened, scopes⟩
  | options _ => exact ⟨registry, opened, scopes⟩
  | names => exact ⟨registry, opened, scopes⟩
  | openScope =>
      refine ⟨registry, by simp [step, opened], fun n shown => ?_⟩
      simp only [step, List.getElem?_append, opened]
      split
      · exact scopes n shown
      · rfl
  | within m w =>
      refine ⟨registry, by simp [step, opened], fun n shown => ?_⟩
      simp only [step, List.getElem?_modify, scopes n shown]

/-- A request to a hidden scope shows nowhere else. -/
theorem alike_step_hidden (alike : Alike hidden s s') {r : Request}
    (hides : r.avoids hidden = false) : Alike hidden (s.step r).1 s' := by
  obtain ⟨registry, opened, scopes⟩ := alike
  cases r with
  | within m w =>
      refine ⟨registry, by simp [step, opened], fun n shown => ?_⟩
      have apart : m ≠ n := by
        intro same
        simp [Request.avoids, same, shown] at hides
      simp only [step, List.getElem?_modify, if_neg apart, scopes n shown]
      exact id_map' _
  | register _ _ => exact nomatch hides
  | provide _ _ => exact nomatch hides
  | options _ => exact nomatch hides
  | names => exact nomatch hides
  | openScope => exact nomatch hides

theorem alike_run (alike : Alike hidden s s') (requests : List Request) :
    Alike hidden (s.run requests) (s'.run (requests.filter (·.avoids hidden))) := by
  induction requests generalizing s s' with
  | nil => exact alike
  | cons r requests ih =>
      rw [List.filter_cons]
      split
      · rename_i avoids
        exact ih (alike_step alike avoids)
      · rename_i hides
        exact ih (alike_step_hidden alike (Bool.eq_false_iff.mpr hides))

theorem answer_alike (alike : Alike hidden s s') {r : Request} (avoids : r.avoids hidden = true) :
    (s.step r).2 = (s'.step r).2 := by
  obtain ⟨registry, opened, scopes⟩ := alike
  cases r with
  | register _ _ => rfl
  | provide _ _ => rfl
  | options messageType => simp only [step, registry]
  | names => simp only [step, registry]
  | openScope => simp only [step, opened]
  | within n w =>
      have shown : hidden n = false := by simpa [Request.avoids] using avoids
      simp only [step, scopes n shown, registry]

theorem answer_filter (requests : List Request) {r : Request} (avoids : r.avoids hidden = true) :
    answer requests r = answer (requests.filter (·.avoids hidden)) r :=
  answer_alike (alike_run ⟨rfl, rfl, fun _ _ => rfl⟩ requests) avoids

/-! ## What a scope answers -/

theorem answer_get (requests : List Request) (n : Nat) (type : String) :
    answer requests (.within n (.get type)) = match wishes? n requests with
      | none => .noScope
      | some wishes => .found ((own? type wishes).or (latest? type (provisions requests))) := by
  rw [answer_within]
  cases wishes? n requests with
  | none => rfl
  | some wishes =>
      have own : (serve {} wishes).own.get? type = own? type wishes := get?_serve {} wishes type
      simp only [Wish.answer, Scope.get?, own, shared_run]

theorem answer_getOrInsert (requests : List Request) (n : Nat) (type : String) (v : Value) :
    answer requests (.within n (.getOrInsert type v)) = match wishes? n requests with
      | none => .noScope
      | some wishes => .kept ((own? type wishes).getD v) (own? type wishes).isNone := by
  rw [answer_within]
  cases wishes? n requests with
  | none => rfl
  | some wishes =>
      have own : (serve {} wishes).own.get? type = own? type wishes := get?_serve {} wishes type
      simp only [Wish.answer, Scope.getOrInsert, own]
      cases own? type wishes with
      | none => rfl
      | some old => rfl

/-- What is offered counts where there is nothing yet, and as long as nothing else is put there. -/
theorem own?_of_offer (wishes : List Wish) {type : String} (v : Value) {later : List Wish}
    (unput : ∀ v', Wish.insert type v' ∉ later) :
    own? type (wishes ++ .getOrInsert type v :: later) =
      some ((own? type wishes).getD v) := by
  have kept : latest? type (insertions (.getOrInsert type v :: later)) = none := by
    rw [latest?_eq_none]
    intro v' mem
    exact unput v' (mem_insertions.mp mem)
  have offered : (offers (.getOrInsert type v :: later)).lookup type = some v :=
    List.lookup_cons_self
  rw [own?, own?, insertions_append, offers_append, latest?_append, List.lookup_append, kept,
    offered, Option.none_or]
  cases latest? type (insertions wishes) with
  | none =>
      cases (offers wishes).lookup type with
      | none => rfl
      | some first => rfl
  | some old => rfl

/-- Scopes are apart. After any requests at a registry and its scopes

* a scope finds the latest instance of a type that was put into it, or else the first one made there
on demand, or else the latest one shared, and nothing if there is none of these;
* an instance is made on demand exactly where a scope has none of its own, shared ones not counted,
and whatever was answered is found and answered from then on, until an instance of the type is put
into this scope;
* an answer of the registry, or of any scope but some, is the same as if nothing had ever been asked
of those. -/
theorem scopes_isolated (requests : List Request) :
    (∀ n type, answer requests (.within n (.get type)) = match wishes? n requests with
      | none => .noScope
      | some wishes => .found ((own? type wishes).or (latest? type (provisions requests)))) ∧
    (∀ n type v, answer requests (.within n (.getOrInsert type v)) = match wishes? n requests with
      | none => .noScope
      | some wishes => .kept ((own? type wishes).getD v) (own? type wishes).isNone) ∧
    (∀ n type v w made later, answer requests (.within n (.getOrInsert type v)) = .kept w made →
      (∀ v', .within n (.insert type v') ∉ later) →
      let all := requests ++ .within n (.getOrInsert type v) :: later
      answer all (.within n (.get type)) = .found (some w) ∧
        ∀ v', answer all (.within n (.getOrInsert type v')) = .kept w false) ∧
    ∀ (hidden : Nat → Bool) (r : Request), r.avoids hidden = true →
      answer requests r = answer (requests.filter (·.avoids hidden)) r := by
  refine ⟨answer_get requests, answer_getOrInsert requests, ?lasting,
    fun hidden r avoids => answer_filter requests avoids⟩
  case lasting =>
    intro n type v w made later answered unput
    rw [answer_getOrInsert] at answered
    cases opened : wishes? n requests with
    | none =>
        rw [opened] at answered
        exact nomatch answered
    | some wishes =>
        rw [opened] at answered
        obtain ⟨rfl, -⟩ := Answer.kept.inj answered
        have reached : wishesAt n (.within n (.getOrInsert type v) :: later) =
            .getOrInsert type v :: wishesAt n later := by
          simp [wishesAt]
        have own := own?_of_offer wishes v fun v' mem => unput v' (mem_wishesAt.mp mem)
        simp only [answer_get, answer_getOrInsert, wishes?_append opened, reached, own]
        exact ⟨rfl, fun v' => rfl⟩

/-- A number is shared between the openings of two scopes; the first makes one of its own on demand,
and the second is given one. -/
def tellers : List Request :=
  [.openScope, .provide "u64" (.int 1), .openScope, .within 0 (.getOrInsert "u64" (.int 2)),
    .within 1 (.insert "u64" (.int 3))]

theorem scopes_isolated_tellers :
    answer tellers (.within 1 (.get "u64")) = .found (some (.int 3)) ∧
      answer tellers (.within 0 (.getOrInsert "u64" (.int 4))) = .kept (.int 2) false ∧
      answer (tellers ++ [.within 0 (.getOrInsert "u64" (.int 4)), .provide "u64" (.int 5)])
        (.within 0 (.get "u64")) = .found (some (.int 2)) ∧
      answer tellers (.within 0 (.get "u64")) =
        answer (tellers.filter (·.avoids (· == 1))) (.within 0 (.get "u64")) := by
  obtain ⟨found, made, lasting, apart⟩ := scopes_isolated tellers
  have kept : answer tellers (.within 0 (.getOrInsert "u64" (.int 4))) = .kept (.int 2) false :=
    made 0 "u64" (.int 4)
  refine ⟨found 1 "u64", kept, ?_, apart (· == 1) _ rfl⟩
  exact (lasting 0 "u64" _ _ _ [.provide "u64" (.int 5)] kept (by simp)).1

end Supply

end Courier
