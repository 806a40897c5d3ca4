import TypedTemplate.Error

/-!
# Outcomes

Computations that may end in an error: what it takes to succeed, how far one that runs out of its budget tells what
another one comes to, and when one repeats another.
-/

namespace TypedTemplate

/-! ## Success -/

theorem Except.bind_ok {ε α β : Type} {x : Except ε α} {k : α → Except ε β} {b : β}
    (h : x >>= k = .ok b) : ∃ a, x = .ok a ∧ k a = .ok b := by
  cases x with
  | error e => cases h
  | ok a => exact ⟨a, rfl, h⟩

theorem Except.bind_error {ε α β : Type} {x : Except ε α} {k : α → Except ε β} {e : ε} (h : x >>= k = .error e) :
    x = .error e ∨ ∃ a, x = .ok a ∧ k a = .error e := by
  cases x with
  | error e' =>
      cases h
      exact .inl rfl
  | ok a => exact .inr ⟨a, rfl, h⟩

theorem atPath_ok {α : Type} {path : String} {x : Except Error α} {a : α} (h : atPath path x = .ok a) :
    x = .ok a := by
  cases x with
  | error e => cases h
  | ok b => exact h

theorem atPath_ok_iff {α : Type} {path : String} {x : Except Error α} {a : α} : atPath path x = .ok a ↔ x = .ok a := by
  cases x <;> simp [atPath]

theorem Except.map_fst_eq_ok {α β : Type} {x : Except Error (α × β)} {a : α} :
    x.map Prod.fst = .ok a ↔ ∃ b, x = .ok (a, b) := by
  cases x with
  | error e => simp [Except.map]
  | ok result => simp [Except.map, Prod.ext_iff]

theorem Except.toOption_eq_some {ε α : Type} {x : Except ε α} {a : α} : x.toOption = some a ↔ x = .ok a := by
  cases x <;> simp [Except.toOption]

/-! ## Failure -/

/-- The error in which a computation ends, if it does. -/
def failure? {ε α : Type} : Except ε α → Option ε
  | .ok _ => none
  | .error e => some e

theorem failure?_eq_some {ε α : Type} {x : Except ε α} {e : ε} : failure? x = some e ↔ x = .error e := by
  cases x <;> simp [failure?]

theorem failure?_eq_none {ε α : Type} {x : Except ε α} : failure? x = none ↔ ∃ a, x = .ok a := by
  cases x <;> simp [failure?]

theorem failure?_atPath {α : Type} (path : String) (x : Except Error α) :
    failure? (atPath path x) = (failure? x).map (·.withPath path) := by
  cases x <;> rfl

/-- The computation ends in an error of the given kind. -/
def Fails {α : Type} (P : Error → Prop) (x : Except Error α) : Prop := ∃ e, x = .error e ∧ P e

section

variable {α β : Type} {P : Error → Prop}

theorem not_fails_ok {a : α} : ¬ Fails P (.ok a : Except Error α) := by
  rintro ⟨e, he, -⟩
  cases he

theorem fails_error {e : Error} : Fails P (.error e : Except Error α) ↔ P e := by
  simp [Fails]

/-- A step and what follows it fail if the step does, or else what follows. -/
theorem fails_bind {x : Except Error α} {k : α → Except Error β} :
    Fails P (x >>= k) ↔ Fails P x ∨ ∃ a, x = .ok a ∧ Fails P (k a) := by
  cases x with
  | ok a => simp [bind, Except.bind, not_fails_ok]
  | error e => simp [bind, Except.bind, fails_error]

theorem fails_atPath (hP : ∀ e path, P (e.withPath path) ↔ P e) {x : Except Error α} {path : String} :
    Fails P (atPath path x) ↔ Fails P x := by
  cases x with
  | ok a => simp [atPath, not_fails_ok]
  | error e => simp [atPath, fails_error, hP]

end

/-! ## Outcomes alike -/

/-- Both computations fail with one error, or both succeed and their results are related. -/
inductive Alongside {α β : Type} (R : α → β → Prop) : Except Error α → Except Error β → Prop
  | ok {a b} : R a b → Alongside R (.ok a) (.ok b)
  | error {e} : Alongside R (.error e) (.error e)

namespace Alongside

variable {α β γ δ : Type} {R : α → β → Prop} {S : γ → δ → Prop} {x : Except Error α} {y : Except Error β}

theorem bind {f : α → Except Error γ} {g : β → Except Error δ} (h : Alongside R x y)
    (hfg : ∀ a b, R a b → Alongside S (f a) (g b)) : Alongside S (x >>= f) (y >>= g) := by
  cases h with
  | ok hr => exact hfg _ _ hr
  | error => exact .error

theorem and_ok (h : Alongside R x y) : Alongside (fun a b => R a b ∧ x = .ok a ∧ y = .ok b) x y := by
  cases h with
  | ok hr => exact .ok ⟨hr, rfl, rfl⟩
  | error => exact .error

theorem imp {S : α → β → Prop} (h : Alongside R x y) (hrs : ∀ a b, R a b → S a b) : Alongside S x y := by
  cases h with
  | ok hr => exact .ok (hrs _ _ hr)
  | error => exact .error

end Alongside

/-- Both computations fail, if with different errors, or both succeed and their results are related. -/
inductive Together {α β : Type} (R : α → β → Prop) : Except Error α → Except Error β → Prop
  | ok {a b} : R a b → Together R (.ok a) (.ok b)
  | error {e e'} : Together R (.error e) (.error e')

namespace Together

variable {α β γ δ : Type} {R : α → β → Prop} {S : γ → δ → Prop} {x : Except Error α} {y : Except Error β}

theorem refl (x : Except Error α) : Together (· = ·) x x := by
  cases x with
  | ok a => exact .ok rfl
  | error e => exact .error

theorem bind {f : α → Except Error γ} {g : β → Except Error δ} (h : Together R x y)
    (hfg : ∀ a b, R a b → Together S (f a) (g b)) : Together S (x >>= f) (y >>= g) := by
  cases h with
  | ok hr => exact hfg _ _ hr
  | error => exact .error

theorem and_ok (h : Together R x y) : Together (fun a b => R a b ∧ x = .ok a ∧ y = .ok b) x y := by
  cases h with
  | ok hr => exact .ok ⟨hr, rfl, rfl⟩
  | error => exact .error

theorem atPath (h : Together R x y) (path path' : String) : Together R (atPath path x) (atPath path' y) := by
  cases h with
  | ok hr => exact .ok hr
  | error => exact .error

theorem imp {S : α → β → Prop} (h : Together R x y) (hrs : ∀ a b, R a b → S a b) : Together S x y := by
  cases h with
  | ok hr => exact .ok (hrs _ _ hr)
  | error => exact .error

theorem ok_iff (h : Together R x y) : (∃ a, x = .ok a) ↔ ∃ b, y = .ok b := by
  cases h <;> simp

theorem eq_ok {a : α} (h : Together (· = ·) x (.ok a)) : x = .ok a := by
  cases h with
  | ok heq => rw [heq]

end Together

/-! ## Outcomes up to the budget -/

/-- The budget ran out. -/
def Exhausted {α : Type} (x : Except Error α) : Prop := ∃ e, x = .error e ∧ e.kind = .exhausted

/-- The first outcome is the second one, unless the budget of the first ran out. -/
def Approximates {α : Type} (x y : Except Error α) : Prop := Exhausted x ∨ x = y

namespace Approximates

variable {α β : Type} {x y z : Except Error α}

theorem refl (x : Except Error α) : Approximates x x := .inr rfl

theorem eq_of_ok {a : α} (h : Approximates (.ok a) y) : y = .ok a := by
  rcases h with ⟨e, he, -⟩ | h
  · cases he
  · exact h.symm

theorem bind {f g : α → Except Error β} (h : Approximates x y) (hfg : ∀ a, Approximates (f a) (g a)) :
    Approximates (x >>= f) (y >>= g) := by
  rcases h with ⟨e, rfl, he⟩ | rfl
  · exact .inl ⟨e, rfl, he⟩
  · cases x with
    | error e => exact .inr rfl
    | ok a => exact hfg a

theorem map (f : α → β) (h : Approximates x y) : Approximates (x.map f) (y.map f) := by
  rcases h with ⟨e, rfl, he⟩ | rfl
  · exact .inl ⟨e, rfl, he⟩
  · exact .inr rfl

theorem passOver {a b : Except Error β} (h : Approximates a b) (e : Error) :
    Approximates (if e.isLookup then a else .error e) (if e.isLookup then b else .error e) := by
  split
  · exact h
  · exact .refl _

end Approximates

/-! ## Outcomes that are repeated -/

/-- The value does not fit the type: an error that a choice passes over. -/
def Error.IsCoercion (e : Error) : Prop := ∃ value target, e.kind = .typeCoercion value target

/-- The passes, the nested renders or the budget do not suffice. -/
def Error.IsLimit (e : Error) : Prop := e.kind = .uninterpolatable ∨ e.kind = .exhausted

theorem Error.IsLimit.not_isCoercion {e : Error} (h : e.IsLimit) : ¬ e.IsCoercion := by
  rintro ⟨value, target, hk⟩
  rcases h with h | h <;> simp [hk] at h

/-- A success is repeated, and so is a failure that a choice passes over. -/
def Again {α : Type} (x y : Except Error α) : Prop :=
  (∀ a, x = .ok a → y = .ok a) ∧ ∀ e, x = .error e → e.IsCoercion → ∃ e', y = .error e' ∧ e'.IsCoercion

namespace Again

variable {α β : Type} {x y : Except Error α} {e e' : Error}

theorem refl (x : Except Error α) : Again x x := ⟨fun _ h => h, fun e he hk => ⟨e, he, hk⟩⟩

theorem of_ok {a : α} (hx : x = .ok a) (hy : y = .ok a) : Again x y := by
  rw [hx, hy]
  exact .refl _

/-- An error that a choice does not pass over need not be repeated. -/
theorem of_error (hx : x = .error e) (hk : ¬ e.IsCoercion) : Again x y := by
  refine ⟨fun a ha => ?_, fun e' he' hk' => ?_⟩
  · rw [hx] at ha
    cases ha
  · rw [hx] at he'
    cases he'
    exact absurd hk' hk

theorem of_coercion (hx : x = .error e) (hy : y = .error e') (hk : e'.IsCoercion) : Again x y := by
  refine ⟨fun a ha => ?_, fun _ _ _ => ⟨e', hy, hk⟩⟩
  rw [hx] at ha
  cases ha

theorem bind {f g : α → Except Error β} (h : Again x y) (hfg : ∀ a, Again (f a) (g a)) : Again (x >>= f) (y >>= g) := by
  cases x with
  | ok a =>
      rw [h.1 a rfl]
      exact hfg a
  | error e =>
      refine ⟨by rintro _ ⟨⟩, fun e' he hk => ?_⟩
      cases he
      obtain ⟨e', rfl, hk'⟩ := h.2 e rfl hk
      exact ⟨e', rfl, hk'⟩

theorem map (f : α → β) (h : Again x y) : Again (x.map f) (y.map f) := by
  have hbind := h.bind fun a => refl (.ok (f a))
  have hmap : ∀ x : Except Error α, x.map f = x >>= fun a => .ok (f a) := by
    rintro (_ | _) <;> rfl
  rwa [hmap, hmap]

end Again

end TypedTemplate
