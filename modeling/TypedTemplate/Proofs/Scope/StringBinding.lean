import TypedTemplate.Proofs.Scope.Plain
import TypedTemplate.Proofs.Scope.Unknown
import TypedTemplate.Proofs.Template.Respelled

/-!
# Strings as bindings

A string that is bound as an object is interpolated on its own before it takes the place of a reference, with nothing
bound to the references in it. So it is spliced in as its text is, with the references spelled anew; but an escaped
placeholder loses its mark while the string is interpolated, and is a live one in the text that it comes into.
-/

namespace TypedTemplate

variable {d : Declarations} {e : Environment} {t : String} {s : Object}

/-- Nothing is looked up in a string. -/
theorem Object.isNamable_string (h : Ty.string.construct d (.ofText t) = .ok s) : s.isNamable = false := by
  rcases Ty.construct_string h with ⟨-, rfl⟩ | ⟨-, rfl⟩ <;> simp only [ofPayload, isNamable]

/-- A string is rendered as its text where nothing is bound, with the references spelled anew. -/
theorem Binding.renderBy_string (h : Ty.string.construct d (.ofText t) = .ok s) (ht : Template.Respellable t)
    (budget : Nat) {depth : Nat} (hdepth : depth < maxDepth) :
    ∃ shown, (Binding.object s).renderBy (Object.interpolateWithin d (budget + 1)) depth = .ok shown ∧
      Template.Respells shown t := by
  rw [Binding.renderBy, if_neg (by omega)]
  rcases Ty.construct_string h with ⟨-, rfl⟩ | ⟨⟨fs, hfs⟩, rfl⟩
  · have hrun : Object.interpolateWithin d (budget + 1) (depth + 1) (.ofPayload .string (.scalar (.string t))) =
        .ok (.ofPayload .string (.scalar (.string t)), []) := by
      rw [Object.interpolateWithin, Object.interpolateIn_eq]
      simp only [Object.ofPayload, Object.interpolatePayload]
      rfl
    exact ⟨t, by simp only [hrun]; rfl, .refl _⟩
  · refine ⟨Template.rewritten t, ?_, ht.respells_rewritten hfs⟩
    simp only [Object.interpolateWithin_string, ht.resolve hfs fun _ _ => rfl, Except.map]
    split <;> simp only [Object.ofPayload, Object.toString, Scalar.toString]

namespace Environment

variable {k r : Ref} {b : Binding}

theorem lookup_of_find (h : e.find d r = .ok b) :
    lookup d [.environment e] r = (b.renderBy (Object.interpolateWithin d Object.budget) 0).map some :=
  lookupBy_cons_ok (s := .environment e) d _ h

theorem lookup_of_missing (h : Missing (e.find d r)) : lookup d [.environment e] r = .ok none := by
  obtain ⟨_, herror, hlookup⟩ := h
  exact lookupBy_cons_missing (s := .environment e) d _ herror hlookup

theorem find_insert_self : (e.insert k b).find d k = .ok b := by
  rw [find, findBy, get?_insert, if_pos rfl]

theorem find_insert_of_get? {b' : Binding} (hkr : k ≠ r) (hr : e.get? r = some b') :
    (e.insert k b).find d r = .ok b' := by
  rw [find, findBy, get?_insert, if_neg hkr, hr]

/-- Beside texts, a binding in which nothing can be looked up is found by its own reference only. -/
theorem TextOnly.missing_insert (he : e.TextOnly) (hb : ∀ o, b = .object o → o.isNamable = false) (hkr : k ≠ r)
    (hr : e.get? r = none) : Missing ((e.insert k b).find d r) := by
  refine findBy_missing_iff.mpr ⟨by rw [get?_insert, if_neg hkr, hr], fun key o rest hm hrest => ?_⟩
  rcases Entries.eq_or_mem_of_mem_insert hm with heq | hm
  · cases heq
    exact Object.missing_of_not_namable (hb o rfl) (Ref.subscope_ne_nil hrest)
  · obtain ⟨u, hu⟩ := he _ hm
    cases hu

/-- Among texts, a reference is looked up alike where a string is bound and where its text is. -/
theorem TextOnly.lookupsAgree (he : e.TextOnly) (h : Ty.string.construct d (.ofText t) = .ok s)
    (ht : Template.Respellable t) (k : Ref) :
    Template.LookupsAgree (lookup d [.environment (e.insert k (.object s))])
      (lookup d [.environment (e.insert k (.text t))]) := by
  intro r
  by_cases hkr : k = r
  · subst hkr
    have hdepth : 0 < maxDepth := by decide
    obtain ⟨shown, hshown, hrespells⟩ := Binding.renderBy_string h ht (Object.budget - 1) hdepth
    have hbudget : Object.budget = Object.budget - 1 + 1 := rfl
    rw [lookup_of_find find_insert_self, lookup_of_find find_insert_self, Binding.renderBy_text _ hdepth, hbudget,
      hshown]
    exact .ok (.some hrespells)
  · have hget := he.get? (r := r)
    cases hr : e.text? r with
    | some u =>
        rw [hr] at hget
        rw [lookup_of_find (find_insert_of_get? hkr hget), lookup_of_find (find_insert_of_get? hkr hget),
          Binding.renderBy_text _ (by decide)]
        exact .ok (.some (.refl _))
    | none =>
        rw [hr] at hget
        have hs : ∀ o, Binding.object s = .object o → o.isNamable = false := by
          rintro _ ⟨⟩
          exact Object.isNamable_string h
        have ht : ∀ o, Binding.text t = .object o → o.isNamable = false := by rintro _ ⟨⟩
        rw [lookup_of_missing (he.missing_insert hs hkr hget), lookup_of_missing (he.missing_insert ht hkr hget)]
        exact .ok .none

end Environment

/-- Substituting a string or its text comes to the same, if the placeholders in it are live and can be read again
from the addresses of their references. -/
theorem Template.resolve_string_binding (he : e.TextOnly) (h : Ty.string.construct d (.ofText t) = .ok s)
    (ht : Respellable t) (k : Ref) (p : String) :
    Together (· = ·) (resolve (lookup d [.environment (e.insert k (.object s))]) p)
      (resolve (lookup d [.environment (e.insert k (.text t))]) p) :=
  (he.lookupsAgree h ht k).resolve (.refl _)

/-- A table of one text. -/
def addressee : Environment := ⟨[(.ofName "name", .text "Al")]⟩

/-- A greeting is bound to a table in which the name is bound, and mentions a title that is not. -/
theorem Template.resolve_string_binding_greeting :
    let greeting := "Dear \x7b\x7btitle\x7d\x7d \x7b\x7b.name\x7d\x7d"
    ∃ s, Ty.string.construct default (.ofText greeting) = .ok s ∧
      resolve (lookup default [.environment (addressee.insert (.ofName "greeting") (.object s))])
        "\x7b\x7bgreeting\x7d\x7d! \x7b\x7bname\x7d\x7d?" =
        .ok ("Dear \x7b\x7btitle\x7d\x7d Al! Al?", [.ofName "title"]) := by
  intro greeting
  have hs : Ty.string.construct default (.ofText greeting) = .ok (.ofPayload .string (.template greeting)) := by cbv
  have htexts : addressee.TextOnly := by simp [Environment.TextOnly, addressee]
  have hrespellable : Respellable greeting := by decide +kernel
  have htext : resolve (lookup default [.environment (addressee.insert (.ofName "greeting") (.text greeting))])
      "\x7b\x7bgreeting\x7d\x7d! \x7b\x7bname\x7d\x7d?" =
      .ok ("Dear \x7b\x7btitle\x7d\x7d Al! Al?", [.ofName "title"]) := by cbv
  have hsame := resolve_string_binding htexts hs hrespellable (.ofName "greeting")
    "\x7b\x7bgreeting\x7d\x7d! \x7b\x7bname\x7d\x7d?"
  rw [htext] at hsame
  exact ⟨_, hs, hsame.eq_ok⟩

/-- An escaped placeholder in a string is a live one once the string has been rendered. -/
theorem Template.resolve_string_binding_escaped :
    let escaped := "\x7b\x7b&a\x7d\x7d"
    ∃ s, Ty.string.construct default (.ofText escaped) = .ok s ∧
      resolve (lookup default [.environment (Environment.empty.insert (.ofName "k") (.object s))])
        "\x7b\x7bk\x7d\x7d" = .ok ("\x7b\x7ba\x7d\x7d", [.ofName "a"]) ∧
      resolve (lookup default [.environment (Environment.empty.insert (.ofName "k") (.text escaped))])
        "\x7b\x7bk\x7d\x7d" = .ok ("\x7b\x7ba\x7d\x7d", []) := by
  intro escaped
  exact ⟨.ofPayload .string (.template escaped), by cbv, by cbv, by cbv⟩

end TypedTemplate
