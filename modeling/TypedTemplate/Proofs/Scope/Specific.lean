import Mathlib.Data.List.Nodup
import TypedTemplate.Environment
import TypedTemplate.Proofs.Ref.Order
import TypedTemplate.Proofs.Scope.Unknown

/-!
# The most specific binding

What a reference stands for in an environment is its own binding, or else what is found in the object bound to the
longest reference it begins with, or in the next shorter one. The order in which references were bound makes no
difference.
-/

namespace TypedTemplate

/-! ## What a reference begins with -/

namespace Ref

/-- The first components of the reference. -/
def take (r : Ref) (n : Nat) : Ref := ⟨r.components.take n⟩

/-- What is left of the reference behind its first components. -/
def drop (r : Ref) (n : Nat) : Ref := ⟨r.components.drop n⟩

theorem length_take {r : Ref} {n : Nat} (h : n ≤ r.length) : (r.take n).length = n :=
  List.length_take_of_le h

theorem subscope_eq_some_iff {outer full rest : Ref} :
    outer.subscope full = some rest ↔ ∃ n < full.length, outer = full.take n ∧ rest = full.drop n := by
  unfold subscope
  constructor
  · intro h
    split at h
    · rename_i hprefix
      obtain ⟨hlength, hprefix⟩ := hprefix
      cases h
      exact ⟨outer.length, hlength, congrArg mk (List.prefix_iff_eq_take.mp hprefix), rfl⟩
    · cases h
  · rintro ⟨n, hn, rfl, rfl⟩
    have hlength : (full.take n).length = n := length_take (Nat.le_of_lt hn)
    rw [if_pos ⟨by rwa [hlength], List.take_prefix n full.components⟩, hlength]
    rfl

end Ref

namespace Environment

variable {e e' : Environment} {r : Ref}

/-! ## Environments that bind each reference once -/

/-- Each reference is bound once. -/
def Distinct (e : Environment) : Prop := (e.table.map Prod.fst).Nodup

theorem Distinct.mem_iff (he : e.Distinct) {key : Ref} {b : Binding} : (key, b) ∈ e.table ↔ e.get? key = some b :=
  ⟨Entries.find?_of_mem he, Entries.mem_of_find?⟩

theorem distinct_empty : empty.Distinct := List.nodup_nil

theorem Distinct.insert (he : e.Distinct) (key : Ref) (b : Binding) : (e.insert key b).Distinct :=
  Entries.nodup_insert b he

theorem Distinct.absorb (he : e.Distinct) (outer : Ref) (inner : Environment) : (e.absorb outer inner).Distinct := by
  unfold Environment.absorb
  generalize inner.table = table
  induction table generalizing e with
  | nil => exact he
  | cons entry rest ih => exact ih (he.insert _ _)

mutual

theorem Distinct.bindValue : (v : Value) → {e e' : Environment} → {r : Ref} → e.Distinct →
    e.bindValue r v = .ok e' → e'.Distinct
  | .scalar .null, _, _, _, _, h => by cases h
  | .scalar (.bool _), _, _, _, he, h | .scalar (.integer _), _, _, _, he, h | .scalar (.float _), _, _, _, he, h
  | .scalar (.string _), _, _, _, he, h => by
      cases h
      exact he.insert _ _
  | .sequence _, _, _, _, _, h => by cases h
  | .mapping entries, _, _, _, he, h => Distinct.bindEntries entries he h

theorem Distinct.bindEntries : (entries : List (String × Value)) → {e e' : Environment} → {r : Ref} → e.Distinct →
    e.bindEntries r entries = .ok e' → e'.Distinct
  | [], _, _, _, he, h => by
      cases h
      exact he
  | (_, v) :: rest, _, _, _, he, h => by
      obtain ⟨_, -, h⟩ := Except.bind_ok h
      obtain ⟨_, hv, h⟩ := Except.bind_ok h
      exact Distinct.bindEntries rest (Distinct.bindValue v he hv) h

end

theorem Distinct.bindEntry {entry : Entry} (he : e.Distinct) (h : e.bindEntry r entry = .ok e') : e'.Distinct := by
  cases entry with
  | value v => exact Distinct.bindValue v he h
  | object o =>
      cases h
      exact he.insert _ _
  | environment inner =>
      cases h
      exact he.absorb _ _

theorem distinct_ofValue {v : Value} (h : ofValue v = .ok e) : e.Distinct := by
  cases v with
  | mapping entries => exact Distinct.bindEntries entries distinct_empty h
  | scalar | sequence => cases h

theorem distinct_ofEntries {entries : List (String × Entry)} (h : ofEntries entries = .ok e) : e.Distinct := by
  unfold ofEntries at h
  have hstart := distinct_empty
  generalize empty = start at h hstart
  induction entries generalizing start with
  | nil =>
      cases h
      exact hstart
  | cons entry rest ih =>
      obtain ⟨next, hnext, h⟩ := Except.bind_ok h
      obtain ⟨r, -, hnext⟩ := Except.bind_ok hnext
      exact ih next h (hstart.bindEntry hnext)

theorem distinct_merge (es : List Environment) : (merge es).Distinct := by
  have hall : ∀ table : List (Ref × Binding), (table.map Prod.fst).Nodup →
      ((es.foldl (fun table e => Entries.insertAll table e.table) table).map Prod.fst).Nodup := by
    induction es with
    | nil => exact fun _ h => h
    | cons e rest ih => exact fun table h => ih _ (Entries.nodup_insertAll h e.table)
  exact hall [] List.nodup_nil

/-! ## Candidates in their order -/

/-- The objects that are bound to the first components of the reference, less than so many of them: each behind the
reference that it is bound to and before what is left of the given one, the one with the longest reference first. -/
def shorter (e : Environment) (r : Ref) : Nat → List (Ref × Object × Ref)
  | 0 => []
  | n + 1 =>
    match e.get? (r.take n) with
    | some (.object o) => (r.take n, o, r.drop n) :: e.shorter r n
    | _ => e.shorter r n

theorem mem_shorter {n : Nat} {entry : Ref × Object × Ref} : entry ∈ e.shorter r n ↔
    ∃ m < n, ∃ o, e.get? (r.take m) = some (.object o) ∧ entry = (r.take m, o, r.drop m) := by
  induction n with
  | zero => simp [shorter]
  | succ n ih =>
      simp only [Nat.exists_lt_succ_right]
      rw [← ih, shorter]
      cases hget : e.get? (r.take n) with
      | none => simp
      | some b =>
          cases b with
          | text s => simp
          | object o => simp [or_comm]

theorem pairwise_shorter {n : Nat} (hn : n ≤ r.length) :
    (e.shorter r n).Pairwise fun x y => y.1.length < x.1.length := by
  induction n with
  | zero => exact .nil
  | succ n ih =>
      have hrest := ih (Nat.le_of_succ_le hn)
      rw [shorter]
      split
      · refine .cons (fun y hy => ?_) hrest
        obtain ⟨m, hm, o, -, rfl⟩ := mem_shorter.mp hy
        rwa [Ref.length_take (by omega), Ref.length_take (by omega)]
      · exact hrest

theorem shorter_congr (h : ∀ key, e'.get? key = e.get? key) (n : Nat) : e'.shorter r n = e.shorter r n := by
  induction n with
  | zero => rfl
  | succ n ih => rw [shorter, shorter, h, ih]

/-- The entry of a candidate, behind the reference that it is bound to. -/
def candidate? (r : Ref) : Ref × Binding → Option (Ref × Object × Ref)
  | (key, .object o) => (key.subscope r).map fun rest => (key, o, rest)
  | (_, .text _) => none

theorem candidate?_eq_some_iff {entry : Ref × Binding} {c : Ref × Object × Ref} :
    candidate? r entry = some c ↔ entry = (c.1, .object c.2.1) ∧ c.1.subscope r = some c.2.2 := by
  obtain ⟨key, b⟩ := entry
  obtain ⟨key', o, rest⟩ := c
  cases b with
  | text s => simp [candidate?]
  | object o' =>
      simp only [candidate?, Option.map_eq_some_iff, Prod.mk.injEq, Binding.object.injEq]
      constructor
      · rintro ⟨_, hrest, rfl, rfl, rfl⟩
        exact ⟨⟨rfl, rfl⟩, hrest⟩
      · rintro ⟨⟨rfl, rfl⟩, hrest⟩
        exact ⟨rest, hrest, rfl, rfl, rfl⟩

theorem mem_filterMap_candidate? (he : e.Distinct) {c : Ref × Object × Ref} :
    c ∈ e.table.filterMap (candidate? r) ↔ c ∈ e.shorter r r.length := by
  rw [List.mem_filterMap, mem_shorter]
  constructor
  · rintro ⟨entry, hentry, hc⟩
    obtain ⟨rfl, hrest⟩ := candidate?_eq_some_iff.mp hc
    obtain ⟨n, hn, hkey, hrest⟩ := Ref.subscope_eq_some_iff.mp hrest
    exact ⟨n, hn, c.2.1, by rw [← hkey, ← he.mem_iff]; exact hentry, by rw [← hkey, ← hrest]⟩
  · rintro ⟨n, hn, o, hget, rfl⟩
    exact ⟨(r.take n, .object o), he.mem_iff.mpr hget,
      candidate?_eq_some_iff.mpr ⟨rfl, Ref.subscope_eq_some_iff.mpr ⟨n, hn, rfl, rfl⟩⟩⟩

theorem nodup_filterMap_candidate? (he : e.Distinct) : (e.table.filterMap (candidate? r)).Nodup := by
  refine (List.Nodup.of_map Prod.fst he).filterMap fun entry entry' c h h' => ?_
  rw [(candidate?_eq_some_iff.mp h).1, (candidate?_eq_some_iff.mp h').1]

theorem nodup_shorter : ((e.shorter r r.length).map Prod.fst).Nodup := by
  refine List.pairwise_map.mpr ((pairwise_shorter (Nat.le_refl _)).imp fun {x y} hlength heq => ?_)
  rw [heq] at hlength
  exact Nat.lt_irrefl _ hlength

/-- References that one reference begins with differ in length, so that sorting puts the candidates in one order only. -/
theorem candidates_eq (he : e.Distinct) : e.candidates r = (e.shorter r r.length).map Prod.snd := by
  let le (a b : Ref × Object × Ref) : Bool := (Ref.cmp b.1 a.1).isLE
  have htrans : ∀ a b c, le a b → le b c → le a c := fun _ _ _ hab hbc => Std.TransCmp.isLE_trans hbc hab
  have htotal : ∀ a b, (le a b || le b a) = true := by
    intro a b
    have hswap : Ref.cmp b.1 a.1 = (Ref.cmp a.1 b.1).swap := Std.OrientedCmp.eq_swap
    simp only [le, hswap]
    cases Ref.cmp a.1 b.1 <;> rfl
  have hshorter : (e.shorter r r.length).Pairwise fun a b => le a b = true :=
    (pairwise_shorter (Nat.le_refl _)).imp fun h => by
      simp only [le, Ref.cmp_of_length_lt h]
      rfl
  have hperm : (e.table.filterMap (candidate? r)).Perm (e.shorter r r.length) :=
    (List.perm_ext_iff_of_nodup (nodup_filterMap_candidate? he) (.of_map _ nodup_shorter)).mpr fun _ =>
      mem_filterMap_candidate? he
  have hantisymm : ∀ a b, a ∈ e.shorter r r.length → b ∈ e.shorter r r.length → le a b → le b a → a = b := by
    intro a b ha hb hab hba
    have hkey : b.1 = a.1 := Std.LawfulEqCmp.eq_of_compare (Std.OrientedCmp.isLE_antisymm hab hba)
    exact List.inj_on_of_nodup_map nodup_shorter ha hb hkey.symm
  have hsorted : (e.table.filterMap (candidate? r)).mergeSort le = e.shorter r r.length :=
    List.Perm.eq_of_pairwise (fun a b ha hb => hantisymm a b (hperm.mem_iff.mp (List.mem_mergeSort.mp ha)) hb)
      (List.pairwise_mergeSort htrans htotal _) hshorter ((List.mergeSort_perm _ _).trans hperm)
  exact congrArg (List.map Prod.snd) hsorted

/-! ## What a lookup comes to -/

/-- Nothing is found behind the first components of the reference: no object is bound to them, or the lookup of the rest
in it fails. -/
def MissesAt (look : Object → Ref → Except Error Object) (e : Environment) (r : Ref) (n : Nat) : Prop :=
  ∀ o, e.get? (r.take n) = some (.object o) → Missing (look o (r.drop n))

/-- What a reference stands for in an environment, where objects are looked into in a given way. -/
inductive Answers (look : Object → Ref → Except Error Object) (e : Environment) (r : Ref) : Except Error Binding → Prop
  /-- The reference is bound itself. -/
  | bound {b} : e.get? r = some b → Answers look e r (.ok b)
  /-- It is not, but the rest is looked up in the object bound to the longest beginning where that does not fail as a
  lookup; any other failure is the answer as well. -/
  | inside {n o} : e.get? r = none → n < r.length → e.get? (r.take n) = some (.object o) →
      ¬ Missing (look o (r.drop n)) → (∀ m, n < m → m < r.length → MissesAt look e r m) →
      Answers look e r ((look o (r.drop n)).map .object)
  | missing : e.get? r = none → (∀ m < r.length, MissesAt look e r m) →
      Answers look e r (.error (Error.notFound r.address "Environment"))

theorem Answers.unique {look : Object → Ref → Except Error Object} {x y : Except Error Binding}
    (hx : e.Answers look r x) (hy : e.Answers look r y) : x = y := by
  cases hx with
  | bound hget =>
      cases hy with
      | bound hget' =>
          rw [hget] at hget'
          cases hget'
          rfl
      | inside hnone | missing hnone => simp [hget] at hnone
  | @inside n o hnone hn hget hfound hlonger =>
      cases hy with
      | bound hget' => simp [hnone] at hget'
      | @inside n' o' _ hn' hget' hfound' hlonger' =>
          rcases Nat.lt_trichotomy n n' with hlt | rfl | hlt
          · exact absurd (hlonger n' hlt hn' o' hget') hfound'
          · rw [hget] at hget'
            cases hget'
            rfl
          · exact absurd (hlonger' n hlt hn o hget) hfound
      | missing _ hall => exact absurd (hall n hn o hget) hfound
  | missing hnone hall =>
      cases hy with
      | bound hget' => simp [hnone] at hget'
      | inside _ hn' hget' hfound' => exact absurd (hall _ hn' _ hget') hfound'
      | missing => rfl

variable {d : Declarations} {snapshot : Object → Except Error Value}

theorem findAmong_of_missesAt (missing : Error) {n k : Nat} (hnk : n ≤ k)
    (h : ∀ m, n ≤ m → m < k → MissesAt (Object.findBy d snapshot) e r m) :
    findAmong d snapshot missing ((e.shorter r k).map Prod.snd) =
      findAmong d snapshot missing ((e.shorter r n).map Prod.snd) := by
  induction k, hnk using Nat.le_induction with
  | base => rfl
  | succ k hnk ih =>
      rw [← ih fun m hm hmk => h m hm (Nat.lt_succ_of_lt hmk), shorter]
      split
      · rename_i o hget
        obtain ⟨err, herr, hlookup⟩ := h k hnk (Nat.lt_succ_self k) o hget
        rw [List.map_cons, findAmong, herr]
        exact if_pos hlookup
      · rfl

theorem findAmong_of_not_missing (missing : Error) {n : Nat} {o : Object} (hget : e.get? (r.take n) = some (.object o))
    (hfound : ¬ Missing (o.findBy d snapshot (r.drop n))) :
    findAmong d snapshot missing ((e.shorter r (n + 1)).map Prod.snd) =
      (o.findBy d snapshot (r.drop n)).map .object := by
  rw [shorter, hget, List.map_cons, findAmong]
  cases hx : o.findBy d snapshot (r.drop n) with
  | ok found => rfl
  | error err =>
      rw [hx, missing_error] at hfound
      exact if_neg hfound

/-- Either all beginnings of the reference are passed over, or there is a longest one that is not. -/
theorem missesAt_or_exists_last (look : Object → Ref → Except Error Object) (e : Environment) (r : Ref) (k : Nat) :
    (∀ m < k, MissesAt look e r m) ∨
      ∃ n < k, ¬ MissesAt look e r n ∧ ∀ m, n < m → m < k → MissesAt look e r m := by
  induction k with
  | zero => exact .inl fun m hm => absurd hm (Nat.not_lt_zero m)
  | succ k ih =>
      by_cases hk : MissesAt look e r k
      · refine ih.imp (fun hall m hm => ?_) fun ⟨n, hn, hlast, hlonger⟩ =>
          ⟨n, Nat.lt_succ_of_lt hn, hlast, fun m hnm hm => ?_⟩
        · exact (Nat.lt_succ_iff_lt_or_eq.mp hm).elim (hall m) fun heq => heq ▸ hk
        · exact (Nat.lt_succ_iff_lt_or_eq.mp hm).elim (hlonger m hnm) fun heq => heq ▸ hk
      · exact .inr ⟨k, Nat.lt_succ_self k, hk, fun m hkm hm => by omega⟩

/-- A lookup comes to what it has to. -/
theorem findBy_answers (he : e.Distinct) : e.Answers (Object.findBy d snapshot) r (e.findBy d snapshot r) := by
  unfold findBy
  cases hget : e.get? r with
  | some b => exact .bound hget
  | none =>
      simp only [candidates_eq he]
      rcases missesAt_or_exists_last (Object.findBy d snapshot) e r r.length with hall | ⟨n, hn, hlast, hlonger⟩
      · rw [findAmong_of_missesAt _ (Nat.zero_le _) fun m _ hm => hall m hm]
        exact .missing hget hall
      · obtain ⟨o, ho, hfound⟩ : ∃ o, e.get? (r.take n) = some (.object o) ∧
            ¬ Missing (o.findBy d snapshot (r.drop n)) := by simpa [MissesAt] using hlast
        rw [findAmong_of_missesAt _ (Nat.succ_le_of_lt hn) fun m hnm hm => hlonger m hnm hm,
          findAmong_of_not_missing _ ho hfound]
        exact .inside hget hn ho hfound hlonger

theorem findBy_congr (he : e.Distinct) (he' : e'.Distinct) (h : ∀ key, e'.get? key = e.get? key) :
    e'.findBy d snapshot r = e.findBy d snapshot r := by
  rw [findBy, findBy, h, candidates_eq he, candidates_eq he', shorter_congr h]

theorem provides_congr (he : e.Distinct) (he' : e'.Distinct) (h : ∀ key, e'.get? key = e.get? key) :
    e'.provides d r = e.provides d r := by
  rw [provides, provides, h, candidates_eq he, candidates_eq he', shorter_congr h]

/-- What a reference stands for is its own binding, or else what the object with the longest beginning of it has for the
rest, where lookups that fail are passed over and any other failure ends the search. Environments that bind the same
references to the same things give the same, whatever they were bound in first. -/
theorem find_iff_answers (d : Declarations) (he : e.Distinct) :
    (∀ r x, e.find d r = x ↔ e.Answers (Object.find d) r x) ∧
      ∀ e' : Environment, e'.Distinct → (∀ key, e'.get? key = e.get? key) →
        ∀ r, e'.find d r = e.find d r ∧ e'.provides d r = e.provides d r := by
  refine ⟨fun r x => ?_, fun e' he' h r => ⟨findBy_congr he he' h, provides_congr he he' h⟩⟩
  have hfind : e.Answers (Object.find d) r (e.find d r) := findBy_answers he
  exact ⟨fun hx => hx ▸ hfind, fun hx => hfind.unique hx⟩

def rowText (text : String) : Object := .ofPayload .string (.scalar (.string text))

def rowList (texts : List String) : Object := .ofPayload (.list .string) (.list (texts.map rowText))

def rowsObject : Object := .ofPayload (.list (.list .string)) (.list [rowList ["x", "y"]])

/-- A row, and what is bound in the place of the first one. -/
def rowEntries : List (Ref × Binding) :=
  [(⟨[.dereference "rows"]⟩, .object rowsObject),
    (⟨[.dereference "rows", .index "0"]⟩, .object (rowList ["z"]))]

/-- The first text of the row is found where the longer reference is bound, the second one only behind the shorter. -/
theorem find_iff_answers_rows : Distinct ⟨rowEntries⟩ ∧ Distinct ⟨rowEntries.reverse⟩ ∧
    (∀ key, Environment.get? ⟨rowEntries.reverse⟩ key = Environment.get? ⟨rowEntries⟩ key) ∧
    Environment.find {} ⟨rowEntries⟩ ⟨[.dereference "rows", .index "0", .index "0"]⟩ = .ok (.object (rowText "z")) ∧
    Environment.find {} ⟨rowEntries⟩ ⟨[.dereference "rows", .index "0", .index "1"]⟩ = .ok (.object (rowText "y")) ∧
    ∀ r, Environment.find {} ⟨rowEntries.reverse⟩ r = Environment.find {} ⟨rowEntries⟩ r ∧
      Environment.provides {} ⟨rowEntries.reverse⟩ r = Environment.provides {} ⟨rowEntries⟩ r := by
  have hd : Distinct ⟨rowEntries⟩ := by
    unfold Distinct
    decide
  have hd' : Distinct ⟨rowEntries.reverse⟩ := by
    unfold Distinct
    decide
  have hsame : ∀ key, Environment.get? ⟨rowEntries.reverse⟩ key = Environment.get? ⟨rowEntries⟩ key :=
    Entries.find?_perm (List.reverse_perm _) hd'
  obtain ⟨hanswers, hsameFind⟩ := find_iff_answers {} hd
  have hfirst : Answers (Object.find {}) ⟨rowEntries⟩ ⟨[.dereference "rows", .index "0", .index "0"]⟩
      ((Object.find {} (rowList ["z"]) ⟨[.index "0"]⟩).map .object) := by
    refine .inside (n := 2) rfl (by decide) rfl (not_missing_ok (rowText "z")) fun m hm hlength => ?_
    exact absurd hlength (Nat.not_lt.mpr hm)
  have hsecond : Answers (Object.find {}) ⟨rowEntries⟩ ⟨[.dereference "rows", .index "0", .index "1"]⟩
      ((Object.find {} rowsObject ⟨[.index "0", .index "1"]⟩).map .object) := by
    refine .inside (n := 1) rfl (by decide) rfl (not_missing_ok (rowText "y")) fun m hm hlength => ?_
    obtain rfl : m = 2 := Nat.le_antisymm (Nat.lt_succ_iff.mp hlength) hm
    rintro o ⟨⟩
    exact ⟨_, rfl, rfl⟩
  exact ⟨hd, hd', hsame, (hanswers _ _).mpr hfirst, (hanswers _ _).mpr hsecond, hsameFind _ hd' hsame⟩

end Environment

end TypedTemplate
