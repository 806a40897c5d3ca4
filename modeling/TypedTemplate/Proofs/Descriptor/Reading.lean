import TypedTemplate.Proofs.Descriptor.Shown

/-!
# Which structs a descriptor mentions

A struct mentioned by name is the one read last under it, and a descriptor that comes again is taken for what it was
the first time. Read in this way, a descriptor is faithful if all structs that it mentions are still being read.
-/

namespace TypedTemplate

/-- What is known of the part of a descriptor that has been read. -/
structure Reading where
  /-- The number of the next type. -/
  next : StructId
  /-- The struct that was read last under each name. -/
  last : List (String × StructId)
  /-- The structs that the descriptors read so far mention outside of their own description. -/
  seen : List (Value × List StructId)

namespace Reading

def skip (σ : Reading) : Reading := { σ with next := σ.next + 1 }

/-- A struct is being read from now on. -/
def enter (σ : Reading) (name : String) : Reading := { σ.skip with last := Entries.insert name σ.next σ.last }

def see (σ : Reading) (v : Value) (mentioned : List StructId) : Reading := { σ with seen := (v, mentioned) :: σ.seen }

def seen? (σ : Reading) (v : Value) : Option (List StructId) :=
  (σ.seen.find? fun entry => entry.1 == v).map Prod.snd

/-- Reads a descriptor, which must mention structs on the path alone if it comes again. -/
def remember (σ : Reading) (path : List StructId) (v : Value) (read : Option (List StructId × Reading)) :
    Option (List StructId × Reading) :=
  match σ.seen? v with
  | some mentioned => if mentioned ⊆ path then some (mentioned, σ) else none
  | none => read.map fun (mentioned, σ) => (mentioned, σ.see v mentioned)

def both (first : Option (List StructId × Reading)) (second : Reading → Option (List StructId × Reading)) :
    Option (List StructId × Reading) := do
  let (mentioned, σ) ← first
  let (others, σ) ← second σ
  some (mentioned ++ others, σ)

def skipped (result : Option (List StructId × Reading)) : Option (List StructId × Reading) :=
  result.map fun (mentioned, σ) => (mentioned, σ.skip)

end Reading

open Reading

mutual

/-- The structs that a form mentions outside of their description. Those on the path are being read; there is no
result if another one is mentioned. -/
def Form.read (path : List StructId) : Form → Reading → Option (List StructId × Reading)
  | .leaf t h, σ => σ.remember path (Form.leaf t h).toValue (some ([], σ.skip))
  | .list f, σ => σ.remember path (Form.list f).toValue (skipped (f.read path σ))
  | .map k v, σ => σ.remember path (Form.map k v).toValue (skipped (both (k.read path σ) (v.read path)))
  | .choice name fs, σ => σ.remember path (Form.choice name fs).toValue (skipped (readEach path fs σ))
  | .struct name fields, σ => σ.remember path (Form.struct name fields).toValue <|
    (readFields (σ.next :: path) fields (σ.enter name)).map fun (mentioned, σ') =>
      (mentioned.filter (· ≠ σ.next), σ')
  | .mention name, σ =>
    match Entries.find? name σ.last with
    | some id => if id ∈ path then some ([id], σ) else none
    | none => none

def readEach (path : List StructId) : List Form → Reading → Option (List StructId × Reading)
  | [], σ => some ([], σ)
  | f :: rest, σ => both (f.read path σ) (readEach path rest)

def readFields (path : List StructId) : List (String × Bool × Form) → Reading → Option (List StructId × Reading)
  | [], σ => some ([], σ)
  | (_, _, f) :: rest, σ => both (f.read path σ) (readFields path rest)

end

/-- Read from the start, with the given number for the first type, the form mentions only structs that are still being
read. -/
def Form.Faithful (f : Form) (next : StructId) : Prop := (f.read [] ⟨next, [], []⟩).isSome

/-! ## Forms without recursion -/

mutual

def Form.isSpelledOut : Form → Bool
  | .leaf _ _ => true
  | .list f => f.isSpelledOut
  | .map k v => k.isSpelledOut && v.isSpelledOut
  | .choice _ fs => allSpelledOut fs
  | .struct _ fields => fieldsSpelledOut fields
  | .mention _ => false

def allSpelledOut : List Form → Bool
  | [] => true
  | f :: rest => f.isSpelledOut && allSpelledOut rest

def fieldsSpelledOut : List (String × Bool × Form) → Bool
  | [] => true
  | (_, _, f) :: rest => f.isSpelledOut && fieldsSpelledOut rest

end

namespace Reading

def Bare (σ : Reading) : Prop := ∀ entry ∈ σ.seen, entry.2 = []

/-- Nothing is mentioned, neither now nor before. -/
def Quiet (result : Option (List StructId × Reading)) : Prop := ∃ σ, result = some ([], σ) ∧ σ.Bare

theorem Quiet.skipped {result : Option (List StructId × Reading)} (h : Quiet result) : Quiet (skipped result) := by
  obtain ⟨σ, rfl, hσ⟩ := h
  exact ⟨σ.skip, rfl, hσ⟩

theorem Quiet.both {result : Option (List StructId × Reading)} {second : Reading → Option (List StructId × Reading)}
    (h : Quiet result) (h' : ∀ σ : Reading, σ.Bare → Quiet (second σ)) : Quiet (both result second) := by
  obtain ⟨σ, rfl, hσ⟩ := h
  obtain ⟨σ', hsecond, hσ'⟩ := h' σ hσ
  exact ⟨σ', by simp [Reading.both, hsecond], hσ'⟩

theorem Quiet.remember {σ : Reading} {path : List StructId} {v : Value} {result : Option (List StructId × Reading)}
    (hσ : σ.Bare) (h : Quiet result) : Quiet (σ.remember path v result) := by
  obtain ⟨σ', rfl, hσ'⟩ := h
  rw [Reading.remember, Reading.seen?]
  cases hfind : σ.seen.find? fun entry => entry.1 == v with
  | none => exact ⟨σ'.see v [], rfl, by simpa [Bare, see] using hσ'⟩
  | some entry => exact ⟨σ, by simp [hσ entry (List.mem_of_find?_eq_some hfind)], hσ⟩

end Reading

mutual

theorem Form.read_of_spelledOut : (f : Form) → f.isSpelledOut → (path : List StructId) → (σ : Reading) → σ.Bare →
    Quiet (f.read path σ)
  | .leaf t _, _, path, σ, hσ => by
      rw [Form.read]
      exact Quiet.remember hσ ⟨σ.skip, rfl, hσ⟩
  | .list f, hf, path, σ, hσ => by
      rw [Form.read]
      exact Quiet.remember hσ (f.read_of_spelledOut hf path σ hσ).skipped
  | .map k v, hf, path, σ, hσ => by
      simp only [Form.isSpelledOut, Bool.and_eq_true] at hf
      rw [Form.read]
      exact Quiet.remember hσ ((k.read_of_spelledOut hf.1 path σ hσ).both (v.read_of_spelledOut hf.2 path)).skipped
  | .choice name fs, hf, path, σ, hσ => by
      rw [Form.read]
      exact Quiet.remember hσ (readEach_of_spelledOut fs hf path σ hσ).skipped
  | .struct name fields, hf, path, σ, hσ => by
      obtain ⟨σ', hread, hσ'⟩ := readFields_of_spelledOut fields hf (σ.next :: path) (σ.enter name) hσ
      rw [Form.read, hread]
      exact Quiet.remember hσ ⟨σ', rfl, hσ'⟩
  | .mention _, hf, _, _, _ => by cases hf
termination_by structural x => x

theorem readEach_of_spelledOut : (fs : List Form) → allSpelledOut fs → (path : List StructId) → (σ : Reading) →
    σ.Bare → Quiet (readEach path fs σ)
  | [], _, path, σ, hσ => by
      rw [readEach]
      exact ⟨σ, rfl, hσ⟩
  | f :: rest, hfs, path, σ, hσ => by
      simp only [allSpelledOut, Bool.and_eq_true] at hfs
      rw [readEach]
      exact (f.read_of_spelledOut hfs.1 path σ hσ).both (readEach_of_spelledOut rest hfs.2 path)
termination_by structural x => x

theorem readFields_of_spelledOut : (fields : List (String × Bool × Form)) → fieldsSpelledOut fields →
    (path : List StructId) → (σ : Reading) → σ.Bare → Quiet (readFields path fields σ)
  | [], _, path, σ, hσ => by
      rw [readFields]
      exact ⟨σ, rfl, hσ⟩
  | (_, _, f) :: rest, hfields, path, σ, hσ => by
      simp only [fieldsSpelledOut, Bool.and_eq_true] at hfields
      rw [readFields]
      exact (f.read_of_spelledOut hfields.1 path σ hσ).both (readFields_of_spelledOut rest hfields.2 path)
termination_by structural x => x

end

/-- The form of a type whose structs are not inside themselves is faithful. -/
theorem Form.faithful_of_spelledOut {f : Form} (h : f.isSpelledOut) (next : StructId) : f.Faithful next := by
  obtain ⟨σ, hread, -⟩ := f.read_of_spelledOut h [] ⟨next, [], []⟩ (by simp [Bare])
  simp [Faithful, hread]

/-! ## The reading follows the making -/

/-- The structs on the path are being read, and those with the given names are declared. -/
structure Dictionary.Reads (D : Dictionary) (names : List String) (path : List StructId) : Prop where
  bounded : D.declarations.Bounded
  known : ∀ name ∈ names, (D.structure? name).isSome
  unfinished : ∀ id ∈ path, ¬ D.declarations.Finished id
  lt : ∀ id ∈ path, id < D.declarations.next

namespace Dictionary

variable {D D' : Dictionary} {names : List String} {path : List StructId}

theorem Reads.grows (h : D.Reads names path) (hgrows : D.Grows D') : D'.Reads names path where
  bounded := hgrows.bounded h.bounded
  known := fun name hname => hgrows.known name (h.known name hname)
  unfinished := by
    intro id hid hfinished
    rcases hgrows.added id hfinished with hfinished | hle
    · exact h.unfinished id hid hfinished
    · exact Nat.not_lt.mpr hle (h.lt id hid)
  lt := fun id hid => Nat.lt_of_lt_of_le (h.lt id hid) hgrows.next

theorem Reads.enter (h : D.Reads names path) (name : String) :
    (D.enter name).Reads (name :: names) (D.declarations.next :: path) where
  bounded := (grows_enter D name).bounded h.bounded
  known := known_enter h.known name
  unfinished := by
    intro id hid hfinished
    rcases List.mem_cons.mp hid with rfl | hid
    · exact Nat.lt_irrefl _ (h.bounded _ hfinished)
    · exact h.unfinished id hid hfinished
  lt := by
    intro id hid
    rcases List.mem_cons.mp hid with rfl | hid
    · exact Nat.lt_succ_self _
    · exact Nat.lt_succ_of_lt (h.lt id hid)

end Dictionary

/-- A descriptor that has been seen shows what the type made from it mentions. -/
structure Reading.Recalls (d : Declarations) (seen : Value × List StructId) (made : Value × Handle) : Prop where
  same : made.1 = seen.1
  discrete : seen.1.isDiscrete
  long : ∀ name, seen.1 ≠ Ty.shortForm name
  shows : d.Shows (fun s => made.2.ty.describeWith s) seen.1 seen.2

/-- The reading knows of the dictionary what structs there are, and what the types in it mention. -/
structure Reading.Follows (σ : Reading) (D : Dictionary) : Prop where
  next : σ.next = D.declarations.next
  last : ∀ name, D.structure? name = (Entries.find? name σ.last).map fun id => ⟨id, .struct id name⟩
  seen : List.Forall₂ (Recalls D.declarations) σ.seen D.memo

namespace Reading

variable {σ : Reading} {D D' D₁ : Dictionary} {path : List StructId} {names : List String} {h : Handle} {v : Value}

theorem Follows.seen? (hσ : σ.Follows D) (hv : v.isDiscrete) : (σ.seen? v = none ∧ D.made? v = none) ∨
    ∃ mentioned h, σ.seen? v = some mentioned ∧ D.made? v = some h ∧ (∀ name, v ≠ Ty.shortForm name) ∧
      D.declarations.Shows (fun s => h.ty.describeWith s) v mentioned := by
  obtain ⟨-, -, hseen⟩ := hσ
  rw [Reading.seen?, Dictionary.made?]
  revert hseen
  generalize σ.seen = seen, D.memo = memo
  intro hseen
  induction hseen with
  | nil => exact .inl ⟨rfl, rfl⟩
  | @cons seen made _ _ hrecalls _ ih =>
      rw [List.find?_cons, List.find?_cons, hrecalls.same]
      cases heq : seen.1 == v with
      | false => exact ih
      | true =>
          cases Value.eq_of_beq hrecalls.discrete hv heq
          exact .inr ⟨_, _, rfl, rfl, hrecalls.long, hrecalls.shows⟩

theorem Recalls.mono {d e : Declarations} {seen : Value × List StructId} {made : Value × Handle}
    (h : Recalls d seen made) (hde : d.Extends e) : Recalls e seen made :=
  ⟨h.same, h.discrete, h.long, h.shows.mono hde⟩

theorem Follows.skip (h : σ.Follows D) : σ.skip.Follows D.skip :=
  ⟨congrArg (· + 1) h.next, h.last, h.seen.imp fun _ _ hrecalls => hrecalls.mono (Dictionary.grows_skip D).kept⟩

theorem Follows.enter (h : σ.Follows D) (name : String) : (σ.enter name).Follows (D.enter name) where
  next := congrArg (· + 1) h.next
  last := by
    intro name'
    rw [Dictionary.structure?_enter]
    simp only [Reading.enter, Entries.find?_insert, h.next]
    split
    · rename_i heq
      rw [heq]
      rfl
    · exact h.last name'
  seen := h.seen.imp fun _ _ hrecalls => hrecalls.mono (Dictionary.grows_enter D name).kept

theorem Follows.finishStruct (hσ : σ.Follows D) (h : Handle) (declared : List (String × Field)) :
    σ.Follows (D.finishStruct h declared) where
  next := by rw [Dictionary.next_finishStruct, hσ.next]
  last := hσ.last
  seen := hσ.seen.imp fun _ _ hrecalls => hrecalls.mono (Declarations.extends_finish _ _ _)

/-- What the reading finds mentioned is what the descriptor made comes to, and where it has no result the descriptor
differs. -/
def Matches {α : Type} (path : List StructId) (D : Dictionary) (describe : (StructId → String → Value) → α) (a : α) :
    Option (List StructId × Reading) → Prop
  | some (mentioned, σ) => σ.Follows D ∧ mentioned ⊆ path ∧ D.declarations.Shows describe a mentioned
  | none => D.declarations.Differs path describe a

section

variable {α β γ : Type} {describe : (StructId → String → Value) → α} {describe' : (StructId → String → Value) → β}
  {describe'' : (StructId → String → Value) → γ} {a : α} {b : β} {c : γ} {result : Option (List StructId × Reading)}

theorem Matches.skipped (h : Matches path D describe a result) (heq : ∀ s, describe' s = b ↔ describe s = a) :
    Matches path D.skip describe' b (skipped result) := by
  cases result with
  | none => exact Declarations.Differs.congr h fun s => (heq s).mp
  | some result =>
      obtain ⟨hσ, hsub, hshows⟩ := h
      exact ⟨hσ.skip, hsub, hshows.congr heq⟩

theorem Matches.both {second : Reading → Option (List StructId × Reading)} (h : Matches path D₁ describe a result)
    (hext : D₁.declarations.Extends D'.declarations)
    (h' : ∀ σ, σ.Follows D₁ → Matches path D' describe' b (second σ))
    (heq : ∀ s, describe'' s = c ↔ describe s = a ∧ describe' s = b) :
    Matches path D' describe'' c (both result second) := by
  cases result with
  | none => exact (Declarations.Differs.mono h hext).congr fun s hs => ((heq s).mp hs).1
  | some result =>
      obtain ⟨mentioned, σ⟩ := result
      obtain ⟨hσ, hsub, hshows⟩ := h
      have hsecond := h' σ hσ
      simp only [Reading.both, Option.bind_eq_bind, Option.bind_some]
      cases hread : second σ with
      | none =>
          rw [hread] at hsecond
          exact Declarations.Differs.congr hsecond fun s hs => ((heq s).mp hs).2
      | some others =>
          rw [hread] at hsecond
          obtain ⟨hσ', hsub', hshows'⟩ := hsecond
          exact ⟨hσ', List.append_subset.mpr ⟨hsub, hsub'⟩, (hshows.mono hext).append hshows' heq⟩

end

theorem Matches.remember {f : Form} {made : Dictionary → Prop} {result : Option (List StructId × Reading)}
    (hlong : ∀ name, f.toValue ≠ Ty.shortForm name) (hreads : D.Reads names path) (hσ : σ.Follows D)
    (hmakes : f.Remembers D h D' made)
    (hmade : ∀ D₁, made D₁ → Matches path D₁ (fun s => h.ty.describeWith s) f.toValue result) :
    Matches path D' (fun s => h.ty.describeWith s) f.toValue (σ.remember path f.toValue result) := by
  rw [Reading.remember]
  rcases hσ.seen? f.toValue_discrete with ⟨hseen, hmemo⟩ | ⟨mentioned, h', hseen, hmemo, -, hshows⟩
  · rcases hmakes with ⟨hmemo', -⟩ | ⟨-, D₁, hD₁, rfl⟩
    · rw [hmemo] at hmemo'
      cases hmemo'
    · have hmatches := hmade D₁ hD₁
      rw [hseen]
      cases result with
      | none => exact hmatches
      | some result =>
          obtain ⟨hσ', hsub, hshows⟩ := hmatches
          exact ⟨⟨hσ'.next, hσ'.last, .cons ⟨rfl, f.toValue_discrete, hlong, hshows⟩ hσ'.seen⟩, hsub, hshows⟩
  · rcases hmakes with ⟨hmemo', rfl⟩ | ⟨hmemo', -⟩
    · rw [hmemo] at hmemo'
      cases hmemo'
      simp only [hseen]
      split
      · exact ⟨hσ, ‹_›, hshows⟩
      · intro e hde hpath heq
        exact absurd ((hshows e hde path hpath hreads.unfinished).mp heq) ‹_›
    · rw [hmemo] at hmemo'
      cases hmemo'

end Reading

end TypedTemplate
