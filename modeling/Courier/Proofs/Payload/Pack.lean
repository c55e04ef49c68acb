import Mathlib.Tactic.IntervalCases
import Courier.Payload.Pack.Parser
import Courier.Payload.Pack.Printer
import Courier.Proofs.Text.Utf8

/-!
# Reading what was written in MessagePack

The octets of a tree are read as the tree, and what follows them is left (`node?_encode`). This
holds of every tree that MessagePack has a form for (`Packable`): integers fit 64 bits, and texts,
sequences and maps have fewer than 2³² octets, items and entries. Each number and each head is
written in the shortest of several forms, and there is one lemma for each of them.

A reader is `Local` if it reads octets no matter what follows them. All readers here are, so a
proper beginning of the octets of a tree is never read (`node?_of_proper_prefix`).
-/

namespace Courier

namespace Pack

/-! ## Numbers -/

theorem length_bigEndian (width n : Nat) : (bigEndian width n).length = width := by
  induction width with
  | zero => rfl
  | succ width ih => rw [bigEndian, List.length_cons, ih]

theorem foldl_bigEndian (width n acc : Nat) :
    (bigEndian width n).foldl (fun n b => 256 * n + b.toNat) acc =
      256 ^ width * acc + n % 256 ^ width := by
  induction width generalizing acc with
  | zero => simp [bigEndian, Nat.mod_one]
  | succ width ih =>
      have octet : (UInt8.ofNat (n / 256 ^ width % 256)).toNat = n / 256 ^ width % 256 :=
        Utf8.toNat_ofNat_of_lt (Nat.mod_lt _ (by decide))
      have split : n % 256 ^ (width + 1) =
          256 ^ width * (n / 256 ^ width % 256) + n % 256 ^ width := by
        rw [Nat.pow_succ, Nat.mod_mul, Nat.add_comm]
      rw [bigEndian, List.foldl_cons, ih]
      change 256 ^ width * (256 * acc + (UInt8.ofNat (n / 256 ^ width % 256)).toNat) + _ = _
      rw [octet, split, Nat.pow_succ, Nat.mul_add, Nat.mul_assoc, Nat.add_assoc]

theorem ofBigEndian_bigEndian {width n : Nat} (fits : n < 256 ^ width) :
    ofBigEndian (bigEndian width n) = n := by
  rw [ofBigEndian, foldl_bigEndian, Nat.mul_zero, Nat.zero_add, Nat.mod_eq_of_lt fits]

theorem split?_append (bytes rest : Bytes) :
    split? bytes.length (bytes ++ rest) = some (bytes, rest) := by
  induction bytes with
  | nil => rfl
  | cons b bytes ih => simp [split?, ih]

theorem nat?_bigEndian {width n : Nat} (fits : n < 256 ^ width) (rest : Bytes) :
    nat? width (bigEndian width n ++ rest) = some (n, rest) := by
  have taken := split?_append (bigEndian width n) rest
  rw [length_bigEndian] at taken
  rw [nat?, taken, Option.map_some]
  exact congrArg (fun n => some (n, rest)) (ofBigEndian_bigEndian fits)

/-- A negative number is read from its two's complement. -/
theorem int?_bigEndian {width n : Nat} (some' : 0 < width) (fits : n < 2 ^ (8 * width - 1))
    (rest : Bytes) :
    int? width (bigEndian width (2 ^ (8 * width) - 1 - n) ++ rest) = some (.negSucc n, rest) := by
  have double := Nat.two_pow_pred_add_two_pow_pred (w := 8 * width) (by omega)
  have octets : 256 ^ width = 2 ^ (8 * width) := (Nat.pow_mul 2 8 width).symm
  have whole : Int.pow 2 (8 * width) = ((2 ^ (8 * width) : Nat) : Int) := (Int.natCast_pow ..).symm
  have small : 2 ^ (8 * width) - 1 - n < 256 ^ width := by
    have positive : 0 < 2 ^ (8 * width) := Nat.pow_pos (by decide)
    omega
  have large : ¬ 2 ^ (8 * width) - 1 - n < Nat.pow 2 (8 * width - 1) := by
    change ¬ 2 ^ (8 * width) - 1 - n < 2 ^ (8 * width - 1)
    omega
  rw [int?, nat?_bigEndian small, Option.map_some]
  simp only [if_neg large, whole]
  congr 2
  omega

/-! ## First octets -/

variable {n : Nat}

theorem head_fixed_nat (range : n < 0x80) : head (UInt8.ofNat n) = .node (.nat n) := by
  have value : (UInt8.ofNat n).toNat = n := Utf8.toNat_ofNat_of_lt (by omega)
  simp only [head, value]
  rw [if_pos range]

theorem head_fixed_int (range : n < 0x20) :
    head (UInt8.ofNat (0xFF - n)) = .node (.int (.negSucc n)) := by
  interval_cases n <;> rfl

theorem head_fixed_text (range : n < 0x20) : head (UInt8.ofNat (0xA0 + n)) = .text n := by
  interval_cases n <;> rfl

theorem head_fixed_seq (range : n < 0x10) : head (UInt8.ofNat (0x90 + n)) = .seq n := by
  interval_cases n <;> rfl

theorem head_fixed_map (range : n < 0x10) : head (UInt8.ofNat (0x80 + n)) = .map n := by
  interval_cases n <;> rfl

/-- What reads the parts of a container, where there is room for one. -/
def inner : Nat → Option (Bytes → Option (Node × Bytes))
  | 0 => none
  | depth + 1 => some (node? depth)

theorem node?_cons (depth : Nat) (b : UInt8) (rest : Bytes) :
    node? depth (b :: rest) = container? (inner depth) rest (head b) := by
  cases depth <;> rfl

/-! ## Forms -/

variable (depth : Nat) (rest : Bytes)

/-- A number after an octet that announces it. -/
theorem node?_nat {b : UInt8} {width bound : Nat} (announced : head b = .nat width)
    (same : bound = 256 ^ width) (fits : n < bound) :
    node? depth (b :: bigEndian width n ++ rest) = some (.nat n, rest) := by
  rw [List.cons_append, node?_cons, announced, container?, nat?_bigEndian (same ▸ fits)]
  rfl

theorem node?_printNat (fits : n < 2 ^ 64) :
    node? depth (printNat n ++ rest) = some (.nat n, rest) := by
  unfold printNat
  split
  · rename_i small
    rw [List.singleton_append, node?_cons, head_fixed_nat small]
    rfl
  · split
    · rename_i small
      exact node?_nat depth rest rfl rfl small
    · split
      · rename_i small
        exact node?_nat depth rest rfl rfl small
      · split
        · rename_i small
          exact node?_nat depth rest rfl rfl small
        · exact node?_nat depth rest rfl rfl fits

/-- A negative number after an octet that announces it. -/
theorem node?_negative {b : UInt8} {width bound : Nat} (announced : head b = .int width)
    (some' : 0 < width) (same : bound = 2 ^ (8 * width - 1)) (fits : n < bound) :
    node? depth (b :: bigEndian width (2 ^ (8 * width) - 1 - n) ++ rest) =
      some (.int (.negSucc n), rest) := by
  rw [List.cons_append, node?_cons, announced, container?, int?_bigEndian some' (same ▸ fits)]
  rfl

theorem node?_printNegative (fits : n < 2 ^ 63) :
    node? depth (printNegative n ++ rest) = some (.int (.negSucc n), rest) := by
  unfold printNegative
  split
  · rename_i small
    rw [List.singleton_append, node?_cons, head_fixed_int small]
    rfl
  · split
    · rename_i small
      exact node?_negative depth rest rfl (by decide) rfl small
    · split
      · rename_i small
        exact node?_negative depth rest rfl (by decide) rfl small
      · split
        · rename_i small
          exact node?_negative depth rest rfl (by decide) rfl small
        · exact node?_negative depth rest rfl (by decide) rfl fits

theorem body?_append (make : Bytes → Node) (bytes : Bytes) :
    body? make bytes.length (bytes ++ rest) = some (make bytes, rest) := by
  rw [body?, split?_append]
  rfl

/-- Octets after their length. -/
theorem sized?_append (make : Bytes → Node) (width : Nat) (bytes : Bytes)
    (fits : bytes.length < 256 ^ width) :
    sized? make width (bigEndian width bytes.length ++ (bytes ++ rest)) =
      some (make bytes, rest) := by
  rw [sized?, nat?_bigEndian fits]
  exact body?_append rest make bytes

theorem node?_text (bytes : Bytes) (fits : bytes.length < 2 ^ 32) :
    node? depth (textHead bytes.length ++ (bytes ++ rest)) = some (textNode bytes, rest) := by
  unfold textHead
  split
  · rename_i small
    rw [List.singleton_append, node?_cons, head_fixed_text small]
    exact body?_append rest textNode bytes
  · split
    · rename_i small
      exact (node?_cons ..).trans (sized?_append rest textNode 1 bytes small)
    · split
      · rename_i small
        exact (node?_cons ..).trans (sized?_append rest textNode 2 bytes small)
      · exact (node?_cons ..).trans (sized?_append rest textNode 4 bytes fits)

theorem node?_octets (bytes : Bytes) (fits : bytes.length < 2 ^ 32) :
    node? depth (octetsHead bytes.length ++ (bytes ++ rest)) = some (.octets bytes, rest) := by
  unfold octetsHead
  split
  · rename_i small
    exact (node?_cons ..).trans (sized?_append rest .octets 1 bytes small)
  · split
    · rename_i small
      exact (node?_cons ..).trans (sized?_append rest .octets 2 bytes small)
    · exact (node?_cons ..).trans (sized?_append rest .octets 4 bytes fits)

/-- The items of a sequence after a head that gives their number. -/
theorem node?_seqSized {b : UInt8} (width : Nat) (announced : head b = .seqSized width)
    (fits : n < 256 ^ width) :
    node? (depth + 1) (b :: bigEndian width n ++ rest) =
      (items? (node? depth) n rest).map fun (ns, after) => (.seq ns, after) := by
  rw [List.cons_append, node?_cons, announced, container?, nat?_bigEndian fits]
  rfl

theorem node?_seqHead (fits : n < 2 ^ 32) :
    node? (depth + 1) (seqHead n ++ rest) =
      (items? (node? depth) n rest).map fun (ns, after) => (.seq ns, after) := by
  unfold seqHead
  split
  · rename_i small
    rw [List.singleton_append, node?_cons, head_fixed_seq small]
    rfl
  · split
    · rename_i small
      exact node?_seqSized depth rest 2 rfl small
    · exact node?_seqSized depth rest 4 rfl fits

/-- The entries of a map after a head that gives their number. -/
theorem node?_mapSized {b : UInt8} (width : Nat) (announced : head b = .mapSized width)
    (fits : n < 256 ^ width) :
    node? (depth + 1) (b :: bigEndian width n ++ rest) =
      (entries? (node? depth) n rest).map fun (es, after) => (.map es, after) := by
  rw [List.cons_append, node?_cons, announced, container?, nat?_bigEndian fits]
  rfl

theorem node?_mapHead (fits : n < 2 ^ 32) :
    node? (depth + 1) (mapHead n ++ rest) =
      (entries? (node? depth) n rest).map fun (es, after) => (.map es, after) := by
  unfold mapHead
  split
  · rename_i small
    rw [List.singleton_append, node?_cons, head_fixed_map small]
    rfl
  · split
    · rename_i small
      exact node?_mapSized depth rest 2 rfl small
    · exact node?_mapSized depth rest 4 rfl fits

/-! ## Trees -/

/-- The trees that MessagePack has a form for, with containers at most so deep inside each other.
No form is for more than 64 bits, nor for 2³² octets, items or entries. -/
inductive Packable : Nat → Node → Prop where
  | null (depth : Nat) : Packable depth .null
  | bool (depth : Nat) (b : Bool) : Packable depth (.bool b)
  | nat (depth : Nat) {n : Nat} : n < 2 ^ 64 → Packable depth (.nat n)
  | int (depth : Nat) {n : Nat} : n < 2 ^ 63 → Packable depth (.int (.negSucc n))
  | float (depth : Nat) (bits : UInt64) : Packable depth (.float bits)
  | text (depth : Nat) {s : String} :
      (Utf8.encode s).length < 2 ^ 32 → Packable depth (.text s)
  | octets (depth : Nat) {bytes : Bytes} : bytes.length < 2 ^ 32 → Packable depth (.octets bytes)
  | seq {depth : Nat} {items : List Node} :
      items.length < 2 ^ 32 → (∀ n ∈ items, Packable depth n) → Packable (depth + 1) (.seq items)
  | map {depth : Nat} {entries : List (Node × Node)} :
      entries.length < 2 ^ 32 → (∀ e ∈ entries, Packable depth e.1) →
      (∀ e ∈ entries, Packable depth e.2) → Packable (depth + 1) (.map entries)

theorem items?_encodeItems {one : Bytes → Option (Node × Bytes)} {items : List Node}
    (each : ∀ n ∈ items, ∀ rest, one (encode n ++ rest) = some (n, rest)) :
    items? one items.length (encodeItems items ++ rest) = some (items, rest) := by
  induction items with
  | nil => rfl
  | cons first others ih =>
      have front := each first List.mem_cons_self (encodeItems others ++ rest)
      have back := ih fun n mem => each n (List.mem_cons_of_mem _ mem)
      rw [encodeItems, List.append_assoc, List.length_cons, items?, front]
      simp only [back, Option.map_some]

theorem entries?_encodeEntries {one : Bytes → Option (Node × Bytes)}
    {entries : List (Node × Node)}
    (keys : ∀ e ∈ entries, ∀ rest, one (encode e.1 ++ rest) = some (e.1, rest))
    (values : ∀ e ∈ entries, ∀ rest, one (encode e.2 ++ rest) = some (e.2, rest)) :
    entries? one entries.length (encodeEntries entries ++ rest) = some (entries, rest) := by
  induction entries with
  | nil => rfl
  | cons first others ih =>
      have key := keys first List.mem_cons_self
        (encode first.2 ++ (encodeEntries others ++ rest))
      have value := values first List.mem_cons_self (encodeEntries others ++ rest)
      have back := ih (fun e mem => keys e (List.mem_cons_of_mem _ mem))
        fun e mem => values e (List.mem_cons_of_mem _ mem)
      rw [encodeEntries, List.append_assoc, List.append_assoc, List.length_cons, entries?, key]
      simp only [value, back, Option.map_some]

/-- The octets of a tree are read as the tree, and what follows them is left. -/
theorem node?_encode {n : Node} (packable : Packable depth n) :
    node? depth (encode n ++ rest) = some (n, rest) := by
  induction packable generalizing rest with
  | null => exact node?_cons ..
  | bool depth b => cases b <;> exact node?_cons ..
  | nat depth fits => exact node?_printNat depth rest fits
  | int depth fits => exact node?_printNegative depth rest fits
  | float depth bits =>
      rw [encode, List.cons_append, node?_cons]
      change container? _ _ .double = _
      rw [container?, nat?_bigEndian bits.toNat_lt, Option.map_some]
      simp
  | @text depth s fits =>
      rw [encode, List.append_assoc, node?_text depth rest _ fits, textNode, Utf8.decode?_encode]
  | @octets depth bytes fits =>
      rw [encode, List.append_assoc, node?_octets depth rest _ fits]
  | @seq depth items fits _ ih =>
      rw [encode, List.append_assoc, node?_seqHead depth _ fits, items?_encodeItems rest ih]
      rfl
  | @map depth entries fits _ _ keys values =>
      rw [encode, List.append_assoc, node?_mapHead depth _ fits,
        entries?_encodeEntries rest keys values]
      rfl

/-! ## Reading no further than necessary -/

section

variable {α β : Type}

/-- A reader that reads octets no matter what follows them. -/
def Local (read : Bytes → Option (α × Bytes)) : Prop :=
  ∀ ⦃bytes a after⦄, read bytes = some (a, after) →
    ∃ used, bytes = used ++ after ∧ ∀ more, read (used ++ more) = some (a, more)

theorem Local.none : Local fun _ => (none : Option (α × Bytes)) :=
  fun _ _ _ done => nomatch done

theorem Local.some (a : α) : Local fun bytes => some (a, bytes) := by
  intro bytes b after done
  cases done
  exact ⟨[], rfl, fun _ => rfl⟩

/-- One reader after the other. -/
theorem Local.bind {read : Bytes → Option (α × Bytes)}
    {next : α → Bytes → Option (β × Bytes)} (first : Local read)
    (second : ∀ a, Local (next a)) :
    Local fun bytes => (read bytes).bind fun r => next r.1 r.2 := by
  intro bytes b after done
  obtain ⟨⟨a, between⟩, one, two⟩ := Option.bind_eq_some_iff.mp done
  obtain ⟨used, rfl, same⟩ := first one
  obtain ⟨others, rfl, same_others⟩ := second a two
  refine ⟨used ++ others, (List.append_assoc ..).symm, fun more => ?_⟩
  change (read (used ++ others ++ more)).bind _ = _
  rw [List.append_assoc, same, Option.bind_some, same_others]

theorem Local.map {read : Bytes → Option (α × Bytes)} (first : Local read) (f : α → β) :
    Local fun bytes => (read bytes).map fun r => (f r.1, r.2) := by
  simp only [Option.map_eq_bind]
  exact first.bind fun a => Local.some (f a)

end

theorem split?_local (n : Nat) : Local (split? n) := by
  induction n with
  | zero => exact Local.some []
  | succ n ih =>
      intro bytes taken after done
      obtain _ | ⟨b, bytes⟩ := bytes
      · exact nomatch done
      · obtain ⟨⟨others, rest⟩, one, two⟩ := Option.map_eq_some_iff.mp done
        cases two
        obtain ⟨used, rfl, same⟩ := ih one
        exact ⟨b :: used, rfl, fun more => by rw [List.cons_append, split?, same]; rfl⟩

theorem nat?_local (width : Nat) : Local (nat? width) := (split?_local width).map _

theorem int?_local (width : Nat) : Local (int? width) :=
  (nat?_local width).map fun n =>
    if n < Nat.pow 2 (8 * width - 1) then (n : Int) else (n : Int) - Int.pow 2 (8 * width)

theorem body?_local (make : Bytes → Node) (length : Nat) : Local (body? make length) :=
  (split?_local length).map make

theorem sized?_local (make : Bytes → Node) (width : Nat) : Local (sized? make width) :=
  (nat?_local width).bind (body?_local make)

theorem items?_local {one : Bytes → Option (Node × Bytes)} (each : Local one) (n : Nat) :
    Local (items? one n) := by
  induction n with
  | zero => exact Local.some []
  | succ n ih =>
      have steps : items? one (n + 1) = fun bytes => (one bytes).bind fun r =>
          (items? one n r.2).map fun s => (r.1 :: s.1, s.2) := by
        funext bytes
        rw [items?]
        cases one bytes <;> rfl
      rw [steps]
      exact each.bind fun first => ih.map (first :: ·)

theorem entries?_local {one : Bytes → Option (Node × Bytes)} (each : Local one) (n : Nat) :
    Local (entries? one n) := by
  induction n with
  | zero => exact Local.some []
  | succ n ih =>
      have steps : entries? one (n + 1) = fun bytes => (one bytes).bind fun r =>
          (one r.2).bind fun s => (entries? one n s.2).map fun t => ((r.1, s.1) :: t.1, t.2) := by
        funext bytes
        rw [entries?]
        obtain _ | ⟨k, rest⟩ := one bytes
        · rfl
        · simp only [Option.bind_some]
          cases one rest <;> rfl
      rw [steps]
      exact each.bind fun k => each.bind fun v => ih.map ((k, v) :: ·)

/-- Reading what is inside, where there is room. -/
theorem room_local {α : Type} {one : Option (Bytes → Option (Node × Bytes))}
    (each : ∀ read ∈ one, Local read)
    {all : (Bytes → Option (Node × Bytes)) → Bytes → Option (α × Bytes)}
    (whole : ∀ read, Local read → Local (all read)) :
    Local fun bytes => one.bind fun read => all read bytes := by
  obtain _ | read := one
  · exact Local.none
  · exact whole read (each read rfl)

theorem container?_local {one : Option (Bytes → Option (Node × Bytes))}
    (each : ∀ read ∈ one, Local read) (h : Head) : Local fun bytes => container? one bytes h := by
  have seq (n : Nat) := room_local each fun _ read => (items?_local read n).map Node.seq
  have map (n : Nat) := room_local each fun _ read => (entries?_local read n).map Node.map
  have ext (n : Nat) := room_local each fun _ _ => body?_local (fun _ => .unreadable) (n + 1)
  cases h with
  | node n => exact Local.some n
  | nat width => exact (nat?_local width).map Node.nat
  | int width => exact (int?_local width).map Node.int
  | single => exact (nat?_local 4).map fun n => Node.float (widen n)
  | double => exact (nat?_local 8).map fun n => Node.float (UInt64.ofNat n)
  | text n => exact body?_local textNode n
  | textSized width => exact sized?_local textNode width
  | octetsSized width => exact sized?_local .octets width
  | ext n => exact ext n
  | extSized width => exact (nat?_local width).bind ext
  | seq n => exact seq n
  | seqSized width => exact (nat?_local width).bind seq
  | map n => exact map n
  | mapSized width => exact (nat?_local width).bind map
  | reserved => exact Local.none

theorem node?_local_of_inner (each : ∀ read ∈ inner depth, Local read) :
    Local (node? depth) := by
  intro bytes n after done
  obtain _ | ⟨b, bytes⟩ := bytes
  · cases depth <;> exact nomatch done
  · rw [node?_cons] at done
    obtain ⟨used, rfl, same⟩ := container?_local each (head b) done
    exact ⟨b :: used, rfl, fun more => (node?_cons depth b _).trans (same more)⟩

theorem node?_local : Local (node? depth) := by
  induction depth with
  | zero => exact node?_local_of_inner 0 fun _ mem => nomatch mem
  | succ depth ih =>
      refine node?_local_of_inner (depth + 1) fun read mem => ?_
      obtain rfl := Option.some.inj mem
      exact ih

/-- No proper beginning of the octets of a tree is read. -/
theorem node?_of_proper_prefix {n : Node} (packable : Packable depth n) {front back : Bytes}
    (parts : encode n = front ++ back) (proper : back ≠ []) : node? depth front = none := by
  by_contra some'
  obtain ⟨⟨m, after⟩, done⟩ := Option.ne_none_iff_exists'.mp some'
  obtain ⟨used, rfl, same⟩ := node?_local depth done
  have whole : node? depth (encode n ++ []) = some (n, []) := node?_encode depth [] packable
  rw [List.append_nil, parts, List.append_assoc, same] at whole
  have nothing : after ++ back = [] := congrArg Prod.snd (Option.some.inj whole)
  exact proper (List.append_eq_nil_iff.mp nothing).2

end Pack

end Courier
