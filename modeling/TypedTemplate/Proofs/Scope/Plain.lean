import Mathlib.Data.List.Induction
import TypedTemplate.Environment
import TypedTemplate.Proofs.Outcome
import TypedTemplate.Proofs.Ref.Address
import TypedTemplate.Proofs.Scope.Lookup

/-!
# Environments of plain mappings

A plain mapping makes an environment that binds texts only, each reference once. In a merge of such environments, a
reference stands for what the last of them that binds it has.
-/

namespace TypedTemplate.Environment

/-- The environment binds texts only, and each reference once. -/
structure Plain (e : Environment) : Prop where
  texts : e.TextOnly
  nodup : (e.table.map Prod.fst).Nodup

theorem plain_empty : empty.Plain := ⟨by rintro _ ⟨⟩, by simp [empty]⟩

variable {e e' : Environment}

theorem get?_insert (r r' : Ref) (b : Binding) : (e.insert r b).get? r' = if r = r' then some b else e.get? r' :=
  Entries.find?_insert r r' b e.table

theorem Plain.insert (h : e.Plain) (r : Ref) (s : String) : (e.insert r (.text s)).Plain where
  texts entry hentry := by
    rcases Entries.eq_or_mem_of_mem_insert hentry with rfl | hm
    · exact ⟨s, rfl⟩
    · exact h.texts entry hm
  nodup := Entries.nodup_insert _ h.nodup

mutual

theorem bindValue_plain : (v : Value) → {e e' : Environment} → {r : Ref} → e.Plain → e.bindValue r v = .ok e' → e'.Plain
  | .scalar .null, _, _, _, _, h => by cases h
  | .scalar (.bool _), _, _, _, he, h | .scalar (.integer _), _, _, _, he, h | .scalar (.float _), _, _, _, he, h
  | .scalar (.string _), _, _, _, he, h => by
      cases h
      exact he.insert _ _
  | .sequence _, _, _, _, _, h => by cases h
  | .mapping entries, _, _, _, he, h => bindEntries_plain entries he h

theorem bindEntries_plain : (entries : List (String × Value)) → {e e' : Environment} → {r : Ref} → e.Plain →
    e.bindEntries r entries = .ok e' → e'.Plain
  | [], _, _, _, he, h => by
      cases h
      exact he
  | (_, v) :: rest, _, _, _, he, h => by
      obtain ⟨_, -, h⟩ := Except.bind_ok h
      obtain ⟨_, hv, h⟩ := Except.bind_ok h
      exact bindEntries_plain rest (bindValue_plain v he hv) h

end

theorem ofValue_plain {v : Value} (h : ofValue v = .ok e) : e.Plain := by
  cases v with
  | mapping entries => exact bindEntries_plain entries plain_empty h
  | scalar | sequence => cases h

/-! ## Merging -/

theorem merge_concat (es : List Environment) (e : Environment) :
    (merge (es ++ [e])).table = Entries.insertAll (merge es).table e.table := by
  simp [merge]

theorem TextOnly.merge {es : List Environment} (h : ∀ e ∈ es, e.TextOnly) : (merge es).TextOnly := by
  induction es using List.reverseRecOn with
  | nil => rintro _ ⟨⟩
  | append_singleton es e ih =>
      intro entry hentry
      rw [merge_concat] at hentry
      rcases Entries.mem_of_mem_insertAll hentry with hm | hm
      · exact ih (fun e he => h e (List.mem_append_left _ he)) entry hm
      · exact h e (by simp) entry hm

/-- In a merge the last environment that binds a reference wins. -/
theorem get?_merge {es : List Environment} (h : ∀ e ∈ es, e.Plain) (r : Ref) :
    (merge es).get? r = es.reverse.findSome? (·.get? r) := by
  induction es using List.reverseRecOn with
  | nil => rfl
  | append_singleton es e ih =>
      have hrest := ih fun e he => h e (List.mem_append_left _ he)
      rw [get?] at hrest
      rw [get?, merge_concat, Entries.find?_insertAll r (h e (by simp)).nodup, hrest, List.reverse_append,
        List.reverse_singleton, List.singleton_append, List.findSome?_cons]
      cases hget : e.get? r with
      | none => rw [← get?, hget, Option.none_or]
      | some b => rw [← get?, hget, Option.some_or]

/-! ## Texts at addresses -/

theorem ofEntries_concat {entries : List (String × Entry)} {entry : String × Entry}
    (h : ofEntries (entries ++ [entry]) = .ok e) :
    ∃ e' r, ofEntries entries = .ok e' ∧ Ref.parse entry.1 = .ok r ∧ e'.bindEntry r entry.2 = .ok e := by
  rw [ofEntries, List.foldlM_append] at h
  obtain ⟨e', he', h⟩ := Except.bind_ok h
  rw [List.foldlM_cons] at h
  obtain ⟨e'', h, hlast⟩ := Except.bind_ok h
  obtain ⟨r, hr, h⟩ := Except.bind_ok h
  cases hlast
  exact ⟨e', r, he', hr, h⟩

/-- Where references are read back from their addresses, the last text that is given for one wins. -/
theorem ofEntries_texts {texts : List (Ref × String)} (htexts : ∀ entry ∈ texts, ∃ s, Ref.parse s = .ok entry.1)
    (h : ofEntries (texts.map fun entry => (entry.1.address, .value (.string entry.2))) = .ok e) :
    e.Plain ∧ ∀ r, e.get? r = (texts.reverse.find? (·.1 = r)).map (.text ·.2) := by
  induction texts using List.reverseRecOn generalizing e with
  | nil =>
      cases h
      exact ⟨plain_empty, fun r => rfl⟩
  | append_singleton texts entry ih =>
      rw [List.map_append, List.map_singleton] at h
      obtain ⟨e', r', he', hr', h⟩ := ofEntries_concat h
      obtain ⟨s, hs⟩ := htexts entry (by simp)
      obtain rfl := Ref.eq_of_parse_address hs hr'
      cases h
      obtain ⟨hplain, hget⟩ := ih (fun entry hm => htexts entry (List.mem_append_left _ hm)) he'
      refine ⟨hplain.insert _ _, fun r => ?_⟩
      rw [get?_insert, hget, List.reverse_append, List.reverse_singleton, List.singleton_append, List.find?_cons]
      by_cases hr : entry.1 = r
      · simp [hr, Scalar.toString]
      · simp [hr]

end TypedTemplate.Environment
