import Mathlib
import TypedTemplate.Proofs.Object.TwinOutcome
import TypedTemplate.Proofs.Ty.Facing

/-!
# Types with equal descriptors

Types with equal descriptors take the same plain values and promise the same references, as long as structs that are
mentioned by their names alone face each other. What they make of a value has the same plain data, if structs that face
each other declare their fields in one order, with defaults that are twins.
-/

namespace TypedTemplate

namespace Ty

variable {d : Declarations} {t u : Ty}

/-- What a descriptor leaves out does not show, if mentions agree and defaults are twins. -/
theorem interchangeable_of_same (hd : ∀ id, ((d.fields id).map Prod.fst).Nodup) (h : t.same d u = true)
    (hmentions : MentionsAgree d t u) :
    (∀ v : Value, (∃ o, t.construct d v.toInput = .ok o) ↔ ∃ o, u.construct d v.toInput = .ok o) ∧
    (∀ r, t.provides d r = u.provides d r) ∧
    (Object.TwinDefaults d (Facing d t u) → ∀ (v : Value) o p, t.construct d v.toInput = .ok o →
      u.construct d v.toInput = .ok p → o.get d = p.get d) := by
  have halike := facing_alike hd h hmentions
  have hfacing : Facing d t u t u := ⟨[], .here⟩
  refine ⟨halike.construct_iff hfacing, halike.provides_eq hfacing, fun hdefaults v o p ho hp => ?_⟩
  have hconstruct := Object.construct_twin halike hdefaults hfacing v.toInput_objects
  rw [ho, hp] at hconstruct
  cases hconstruct with
  | ok hop => exact hop.1.get_eq halike hdefaults

def labelField : Field := ⟨.string, false, some (.ofPayload .string (.scalar (.string "end")))⟩

def chainFields (id : StructId) : List (String × Field) :=
  [("label", labelField), ("next", ⟨.list (.struct id "Chain"), false, none⟩)]

/-- Two recursive structs that are declared alike. -/
def chains : Declarations where
  next := 2
  finished := [(0, chainFields 0), (1, chainFields 1)]

def chainValue : Value :=
  .mapping [("label", .string "start"), ("next", .sequence [.mapping [("next", .sequence [])]])]

theorem reaches_chain {id inner : StructId} {name : String} (h : id = 0 ∨ id = 1)
    (hreaches : (struct id "Chain").Reaches chains inner name) : inner = id ∧ name = "Chain" := by
  have hfields : chains.fields id = chainFields id := by rcases h with rfl | rfl <;> rfl
  have hm : (inner, name) ∈ [(id, "Chain")] := by
    refine mem_of_reaches (by simp [structs]) (fun s hs entry he => ?_) hreaches
    obtain rfl := List.mem_singleton.mp hs
    simp only [hfields, chainFields, List.mem_cons, List.not_mem_nil, or_false] at he
    rcases he with rfl | rfl <;> simp [structs, labelField]
  simpa using hm

theorem twinDefaults_chains :
    Object.TwinDefaults chains (Facing chains (struct 0 "Chain") (struct 1 "Chain")) := by
  rintro id id' name name' ⟨p, h⟩
  obtain ⟨hleft, hright⟩ := h.struct_reaches
  obtain ⟨rfl, rfl⟩ := reaches_chain (.inl rfl) hleft
  obtain ⟨rfl, rfl⟩ := reaches_chain (.inr rfl) hright
  have hlabel : Faces chains (struct 0 "Chain") (struct 1 "Chain") [(0, 1)] string string :=
    .field (f := labelField) (g := labelField) .here (by simp) (by simp)
      (show Entries.find? "label" (chainFields 0) = _ from rfl) rfl
  exact .cons (.value (.ofPayload ⟨_, hlabel⟩ (.scalar rfl))) (.cons .empty .nil)

theorem interchangeable_chains :
    (∃ o p v, (struct 0 "Chain").construct chains chainValue.toInput = .ok o ∧
      (struct 1 "Chain").construct chains chainValue.toInput = .ok p ∧ o.get chains = .ok v ∧ p.get chains = .ok v) ∧
    (struct 0 "Chain").provides chains ⟨[.dereference "next", .index "0", .dereference "label"]⟩ =
      (struct 1 "Chain").provides chains ⟨[.dereference "next", .index "0", .dereference "label"]⟩ := by
  have hsame : (struct 0 "Chain").same chains (struct 1 "Chain") = true := by cbv
  have hnodup : ∀ id, ((chains.fields id).map Prod.fst).Nodup := Declarations.nodup_fields (by decide)
  have hmentions : MentionsAgree chains (struct 0 "Chain") (struct 1 "Chain") := by
    refine mentionsAgree_of_named hnodup hsame (fun id m n hm hn => ?_) fun id id' name hid hid' => ?_
    · rw [(reaches_chain (.inl rfl) hm).2, (reaches_chain (.inl rfl) hn).2]
    · rw [(reaches_chain (.inr rfl) hid).1, (reaches_chain (.inr rfl) hid').1]
  obtain ⟨hconstruct, hprovides, hget⟩ := interchangeable_of_same hnodup hsame hmentions
  obtain ⟨o, v, ho, hv⟩ : ∃ o v, (struct 0 "Chain").construct chains chainValue.toInput = .ok o ∧
      o.get chains = .ok v := ⟨_, _, by cbv, by cbv⟩
  obtain ⟨p, hp⟩ := (hconstruct chainValue).mp ⟨o, ho⟩
  exact ⟨⟨o, p, v, ho, hp, hv, hget twinDefaults_chains chainValue o p ho hp ▸ hv⟩, hprovides _⟩

/-! ## Where the descriptor does not tell -/

/-- Two structs in which a struct of the same name stands; its own field leads to itself in the first one, and to the
outer struct in the second one. -/
def homonyms : Declarations where
  next := 4
  finished := [
    (0, [("w", ⟨.list (.struct 0 "A"), false, none⟩), ("x", ⟨.struct 1 "A", false, none⟩)]),
    (1, [("y", ⟨.list (.struct 1 "A"), false, none⟩)]),
    (2, [("w", ⟨.list (.struct 2 "A"), false, none⟩), ("x", ⟨.struct 3 "A", false, none⟩)]),
    (3, [("y", ⟨.list (.struct 2 "A"), false, none⟩)])]

def homonymsValue : Value :=
  .mapping [("x", .mapping [("y", .sequence [.mapping [("w", .sequence [])]])])]

/-- Two structs with a text that refers to another one as the default of a field, each with a scope of its own. -/
def elsewhere : Declarations where
  next := 2
  finished := [
    (0, [("x", ⟨.string, false,
      some ⟨.string, .template "\x7b\x7by\x7d\x7d", [.environment ⟨[(.ofName "y", .text "1")]⟩], []⟩⟩)]),
    (1, [("x", ⟨.string, false,
      some ⟨.string, .template "\x7b\x7by\x7d\x7d", [.environment ⟨[(.ofName "y", .text "2")]⟩], []⟩⟩)])]

def twoFields (a b : String) : List (String × Field) := [(a, ⟨.string, false, none⟩), (b, ⟨.string, false, none⟩)]

/-- Two structs around others that declare the same fields in different orders. -/
def reordered : Declarations where
  next := 4
  finished := [
    (0, twoFields "a" "b"),
    (1, twoFields "b" "a"),
    (2, [("p", ⟨.struct 0 "P", false, none⟩), ("s", ⟨.string, false, none⟩)]),
    (3, [("p", ⟨.struct 1 "P", false, none⟩), ("s", ⟨.string, false, none⟩)])]

def reorderedValue : Value :=
  .mapping [("p", .mapping [("a", .string "1"), ("b", .string "2")]), ("s", .string "\x7b\x7bp\x7d\x7d")]

/-- Types with equal descriptors that take different values and promise different references, and others that make
different data of one value: by the scopes of a default, and by the order of fields. -/
theorem same_not_interchangeable :
    ((struct 0 "A").same homonyms (struct 2 "A") = true ∧
      (∃ e, (struct 0 "A").construct homonyms homonymsValue.toInput = .error e) ∧
      (∃ o, (struct 2 "A").construct homonyms homonymsValue.toInput = .ok o) ∧
      (struct 0 "A").provides homonyms ⟨[.dereference "x", .dereference "y", .index "0", .dereference "w"]⟩ = false ∧
      (struct 2 "A").provides homonyms ⟨[.dereference "x", .dereference "y", .index "0", .dereference "w"]⟩ = true) ∧
    ((struct 0 "B").same elsewhere (struct 1 "B") = true ∧
      ∃ o p, (struct 0 "B").construct elsewhere (Value.mapping []).toInput = .ok o ∧
        (struct 1 "B").construct elsewhere (Value.mapping []).toInput = .ok p ∧
        o.get elsewhere = .ok (.mapping [("x", .string "1")]) ∧
        p.get elsewhere = .ok (.mapping [("x", .string "2")])) ∧
    (struct 2 "Q").same reordered (struct 3 "Q") = true ∧
      ∃ o p, (struct 2 "Q").construct reordered reorderedValue.toInput = .ok o ∧
        (struct 3 "Q").construct reordered reorderedValue.toInput = .ok p ∧
        o.get reordered = .ok (.mapping
          [("p", .mapping [("a", .string "1"), ("b", .string "2")]), ("s", .string "P(a=1, b=2)")]) ∧
        p.get reordered = .ok (.mapping
          [("p", .mapping [("b", .string "2"), ("a", .string "1")]), ("s", .string "P(b=2, a=1)")]) :=
  ⟨⟨by cbv, ⟨_, by cbv⟩, ⟨_, by cbv⟩, by cbv, by cbv⟩, ⟨by cbv, _, _, by cbv, by cbv, by cbv, by cbv⟩,
    by cbv, _, _, by cbv, by cbv, by cbv, by cbv⟩

end Ty

end TypedTemplate
