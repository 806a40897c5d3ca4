import TypedTemplate.Proofs.Object.Missing

/-!
# What a lookup compares

A lookup asks no more of what is on its way than that the keys of maps can be compared with what a token is made into.
Whatever else goes wrong is a failed lookup, which a search passes over. Only finitely many objects come to be compared.
-/

namespace TypedTemplate

variable {d : Declarations}

namespace Object

/-- A lookup along the path from the first object compares the second one. -/
inductive Compares (d : Declarations) (snapshot : Object → Except Error Value) :
    List Component → Object → Object → Prop
  /-- A token is made into a key, and a key of the map is of the same type: both of them are compared. -/
  | key {token rest o pairs keyType valueType made k v compared} : o.payload = .map pairs →
      o.ty = .map keyType valueType → keyType.construct d (.ofText token) = .ok made → (k, v) ∈ pairs →
      k.ty.same d made.ty = true → compared = k ∨ compared = made →
      Compares d snapshot (.index token :: rest) o compared
  | behind {c rest o p compared} : step d snapshot c o = .ok p → Compares d snapshot rest p compared →
      Compares d snapshot (c :: rest) o compared
  | settled {path o inner compared} : o.payload = .typed inner → Compares d snapshot path (o.core []) compared →
      Compares d snapshot path o compared
  | offered {path o draft t candidate compared} : o.payload = .untyped draft → t ∈ o.ty.alternatives →
      t.Offers d draft candidate → Compares d snapshot path (candidate.inScopeAll o.scopes) compared →
      Compares d snapshot path o compared

/-- Nothing but an exhausted budget keeps an object from being compared. -/
theorem snapshotBy_error {eval : Object → Interpolated} {o : Object} {e : Error} (h : snapshotBy eval o = .error e) :
    eval o = .error e ∧ e.kind = .exhausted := by
  unfold snapshotBy at h
  split at h
  · cases h
  · rename_i e' he'
    split at h
    · cases h
      exact ⟨he', ‹_›⟩
    · cases h

section

variable {snapshot : Object → Except Error Value} {e : Error}

theorem Compares.of_core {path : List Component} {o k : Object} (h : (o.core []).Compares d snapshot path k) :
    o.Compares d snapshot path k := by
  obtain ⟨t, payload, own, provided⟩ := o
  cases payload with
  | typed inner => exact .settled rfl h
  | _ => simpa [core] using h

theorem Compares.to_core {path : List Component} {o k : Object} (h : o.Compares d snapshot path k) :
    (o.core []).Compares d snapshot path k := by
  obtain ⟨t, payload, own, provided⟩ := o
  cases payload with
  | typed inner =>
      cases h with
      | key hpairs => cases hpairs
      | @behind c _ _ _ _ hp _ => cases c <;> cases hp
      | settled hinner h =>
          cases hinner
          exact h
      | offered hdraft => cases hdraft
  | _ => simpa [core] using h

theorem Compares.path_ne_nil {path : List Component} {o k : Object} (h : o.Compares d snapshot path k) :
    path ≠ [] := by
  induction h with
  | key | behind => exact List.cons_ne_nil _ _
  | settled _ _ ih | offered _ _ _ _ ih => exact ih

/-! ## One step -/

theorem error_of_findPair {key : Object} {pairs : List (Object × Object)}
    (h : findPair d snapshot key pairs = .error e) :
    ∃ k v, (k, v) ∈ pairs ∧ k.ty.same d key.ty = true ∧ ∃ compared, (compared = k ∨ compared = key) ∧
      snapshot compared = .error e := by
  induction pairs with
  | nil => cases h
  | cons pair rest ih =>
      obtain ⟨k, v⟩ := pair
      have hrest : findPair d snapshot key rest = .error e → ∃ k' v', (k', v') ∈ (k, v) :: rest ∧
          k'.ty.same d key.ty = true ∧ ∃ compared, (compared = k' ∨ compared = key) ∧ snapshot compared = .error e := by
        intro h
        obtain ⟨k', v', hm, hcompared⟩ := ih h
        exact ⟨k', v', List.mem_cons_of_mem _ hm, hcompared⟩
      rw [findPair] at h
      split at h
      · rename_i hsame
        rcases Except.bind_error h with h | ⟨a, -, h⟩
        · exact ⟨k, v, by simp, hsame, k, .inl rfl, h⟩
        rcases Except.bind_error h with h | ⟨b, -, h⟩
        · exact ⟨k, v, by simp, hsame, key, .inr rfl, h⟩
        split at h
        · cases h
        · exact hrest h
      · exact hrest h

/-- A step fails as a lookup, or because of what it compares. -/
theorem error_of_step {c : Component} {o : Object} (h : step d snapshot c o = .error e) (rest : List Component) :
    e.isLookup = true ∨ ∃ k, o.Compares d snapshot (c :: rest) k ∧ snapshot k = .error e := by
  have hlookup : ∀ {e' : Error}, (Except.error e' : Except Error Object) = .error e → e'.isLookup = true →
      e.isLookup = true ∨ ∃ k, o.Compares d snapshot (c :: rest) k ∧ snapshot k = .error e := by
    rintro _ ⟨⟩ he
    exact .inl he
  obtain ⟨t, payload, own, provided⟩ := o
  cases payload with
  | list elements =>
      cases c with
      | dereference name => exact hlookup h rfl
      | index token =>
          simp only [step] at h
          split at h
          · exact hlookup h rfl
          · split at h
            · exact hlookup h rfl
            · cases h
  | map pairs =>
      cases c with
      | dereference name => exact hlookup h rfl
      | index token =>
          simp only [step] at h
          split at h
          · split at h
            · exact hlookup h rfl
            · rename_i made hmade
              rcases Except.bind_error h with h | ⟨found, -, h⟩
              · obtain ⟨k, v, hm, hsame, compared, hcompared, he⟩ := error_of_findPair h
                exact .inr ⟨compared, .key rfl rfl hmade hm hsame hcompared, he⟩
              · split at h
                · exact hlookup h rfl
                · cases h
          · exact hlookup h rfl
  | struct fields =>
      cases c with
      | index token => exact hlookup h rfl
      | dereference name =>
          simp only [step] at h
          split at h
          · cases h
          · exact hlookup h rfl
  | scalar | template | typed | untyped => cases c <;> exact hlookup h rfl

end

/-! ## Alternatives -/

section

variable {go : Object → Except Error Object} {draft : Draft} {missing : Error} {e : Error}

mutual

/-- Trying the alternatives fails as given, or with the error of one of the objects that they offer. -/
theorem error_of_tryAlternatives : (ts : List Ty) → tryAlternatives d go missing draft ts = .error e →
    e = missing ∨ ∃ t ∈ ts, ∃ o, t.Offers d draft o ∧ go o = .error e
  | [], h => by
      cases h
      exact .inl rfl
  | t :: rest, h => by
      have hrest : tryAlternatives d go missing draft rest = .error e →
          e = missing ∨ ∃ t' ∈ t :: rest, ∃ o, t'.Offers d draft o ∧ go o = .error e := by
        intro h
        refine (error_of_tryAlternatives rest h).imp_right fun ⟨t', ht', ho⟩ => ?_
        exact ⟨t', List.mem_cons_of_mem _ ht', ho⟩
      rw [tryAlternatives] at h
      split at h
      · rename_i hnamable
        split at h
        · cases h
        · rename_i e' he'
          split at h
          · exact hrest h
          · cases h
            exact (error_of_tryAlternative t hnamable he').imp_right fun ho => ⟨t, by simp, ho⟩
      · exact hrest h

theorem error_of_tryAlternative : (t : Ty) → t.isNamable = true → tryAlternative d go missing draft t = .error e →
    e = missing ∨ ∃ o, t.Offers d draft o ∧ go o = .error e
  | .choice name alternatives, _, h => by
      rw [tryAlternative] at h
      refine (error_of_tryAlternatives alternatives h).imp_right fun ⟨t, ht, o, ho, he⟩ => ?_
      exact ⟨o, .alternative ht ho, he⟩
  | .list _, ht, h | .map _ _, ht, h | .struct _ _, ht, h => by
      simp only [tryAlternative] at h
      split at h
      · rename_i candidate hcandidate
        exact .inr ⟨candidate, .taken ht rfl hcandidate, h⟩
      · cases h
        exact .inl rfl
  | .string, ht, _ | .integer, ht, _ | .float, ht, _ | .boolean, ht, _ | .enum _ _, ht, _ => by cases ht

end

end

/-! ## The whole way -/

section

variable {snapshot : Object → Except Error Value} {e : Error}

/-- A lookup along a path fails in a way that a search passes over, or because of what it compares. -/
theorem error_of_findFrom {path : List Component} (hpath : path ≠ []) {o : Object}
    (h : findFrom d snapshot path o = .error e) :
    e.isLookup = true ∨ ∃ k, o.Compares d snapshot path k ∧ snapshot k = .error e := by
  induction path generalizing o with
  | nil => exact absurd rfl hpath
  | cons c rest ih =>
      -- A candidate of a choice and any other object are followed alike; only how they are come by differs.
      have hfollow : ∀ o, follow d snapshot (c :: rest) o = .error e →
          e.isLookup = true ∨ ∃ k, o.Compares d snapshot (c :: rest) k ∧ snapshot k = .error e := by
        intro o h
        by_cases hrest : rest = []
        · subst hrest
          exact error_of_step h []
        · rw [follow_cons c hrest] at h
          rcases Except.bind_error h with h | ⟨p, hp, h⟩
          · exact error_of_step h rest
          · rw [descend] at h
            split at h
            · rcases ih hrest h with he | ⟨k, hk, he⟩
              · exact .inl he
              · exact .inr ⟨k, .behind hp hk, he⟩
            · cases h
              exact .inl rfl
      have hcore : e.isLookup = true ∨ ∃ k, (o.core []).Compares d snapshot (c :: rest) k ∧ snapshot k = .error e := by
        rw [findFrom_eq, enter] at h
        split at h
        · rename_i draft hdraft
          rcases error_of_tryAlternatives _ h with rfl | ⟨t, ht, candidate, hoffers, he⟩
          · exact .inl rfl
          · rcases hfollow _ he with he | ⟨k, hk, he⟩
            · exact .inl he
            · exact .inr ⟨k, .offered hdraft ht hoffers hk, he⟩
        · exact hfollow _ h
      rcases hcore with he | ⟨k, hk, he⟩
      · exact .inl he
      · exact .inr ⟨k, hk.of_core, he⟩

end

end Object

/-! ## What is compared at all -/

section

variable {draft : Draft}

mutual

theorem Ty.finite_offers : (t : Ty) → {o | t.Offers d draft o}.Finite
  | .choice name alternatives => by
      refine (finite_offered alternatives).subset ?_
      intro o h
      cases h with
      | taken ht halternatives =>
          cases halternatives
          cases ht
      | alternative ht ho => exact ⟨_, ht, ho⟩
  | .list _ | .map _ _ | .struct _ _ | .string | .integer | .float | .boolean | .enum _ _ => by
      refine Set.Subsingleton.finite ?_
      intro o ho o' ho'
      cases ho with
      | taken _ _ h =>
          cases ho' with
          | taken _ _ h' =>
              cases h.symm.trans h'
              rfl

theorem Ty.finite_offered : (ts : List Ty) → {o | ∃ t ∈ ts, t.Offers d draft o}.Finite
  | [] => by simp
  | t :: rest => by
      refine ((finite_offers t).union (finite_offered rest)).subset ?_
      rintro o ⟨t', ht', ho⟩
      rcases List.mem_cons.mp ht' with rfl | ht'
      · exact .inl ho
      · exact .inr ⟨t', ht', ho⟩

end

end

namespace Object

/-- What a lookup along the path compares, whatever anything comes to. -/
def compared (d : Declarations) (path : List Component) (o : Object) : Set Object :=
  {k | ∃ snapshot, o.Compares d snapshot path k}

theorem finite_compared_cons (c : Component) {rest : List Component} (hrest : ∀ p : Object, (p.compared d rest).Finite)
    {o : Object} (ho : o.payload.isChoice = false) : (o.compared d (c :: rest)).Finite := by
  have hparts : {k | k ∈ o.payload.parts}.Finite := List.finite_toSet _
  have hmade : {made | ∃ token keyType valueType, c = .index token ∧ o.ty = .map keyType valueType ∧
      keyType.construct d (.ofText token) = .ok made}.Finite := by
    refine Set.Subsingleton.finite ?_
    rintro made ⟨token, keyType, valueType, rfl, hty, hmade⟩ made' ⟨_, _, _, hc, hty', hmade'⟩
    cases hc
    cases hty.symm.trans hty'
    cases hmade.symm.trans hmade'
    rfl
  have hbehind := hparts.biUnion fun p _ => hrest (p.inScopeAll o.innerScopes)
  refine ((hparts.union hmade).union hbehind).subset ?_
  rintro k ⟨snapshot, h⟩
  cases h with
  | key hpairs hty hconstruct hm _ hk =>
      rcases hk with rfl | rfl
      · exact .inl (.inl (hpairs ▸ Payload.mem_parts_map.mpr ⟨_, _, hm, .inl rfl⟩))
      · exact .inl (.inr ⟨_, _, _, rfl, hty, hconstruct⟩)
  | behind hp hk =>
      obtain ⟨p, hm, rfl⟩ := mem_parts_of_step hp
      exact .inr (Set.mem_biUnion hm ⟨snapshot, hk⟩)
  | settled hinner =>
      rw [hinner] at ho
      cases ho
  | offered hdraft =>
      rw [hdraft] at ho
      cases ho

section

variable {path : List Component} (hplain : ∀ o : Object, o.payload.isChoice = false → (o.compared d path).Finite)

include hplain

theorem finite_compared_untyped {o : Object} {draft : Draft} (hdraft : o.payload = .untyped draft) :
    (o.compared d path).Finite := by
  have hoffered : {candidate | ∃ t ∈ o.ty.alternatives, t.Offers d draft candidate}.Finite :=
    Ty.finite_offered o.ty.alternatives
  have hbehind := hoffered.biUnion fun candidate ⟨_, _, hoffers⟩ =>
    hplain (candidate.inScopeAll o.scopes) hoffers.isChoice
  refine hbehind.subset ?_
  rintro k ⟨snapshot, h⟩
  cases h with
  | key hpairs => cases hdraft.symm.trans hpairs
  | behind hp =>
      obtain ⟨p, hm, -⟩ := mem_parts_of_step hp
      rw [hdraft] at hm
      cases hm
  | settled hinner => cases hdraft.symm.trans hinner
  | offered hdraft' ht hoffers h =>
      cases hdraft.symm.trans hdraft'
      exact Set.mem_biUnion ⟨_, ht, hoffers⟩ ⟨snapshot, h⟩

theorem finite_compared_core (o : Object) : ∀ outer : List Scope, ((o.core outer).compared d path).Finite := by
  induction o using parts_induction with
  | _ o ih =>
    intro outer
    obtain ⟨t, payload, own, provided⟩ := o
    cases payload with
    | typed inner =>
        simp only [core]
        exact ih inner (List.mem_singleton.mpr rfl) _
    | untyped draft => exact finite_compared_untyped hplain rfl
    | _ => exact hplain _ rfl

end

/-- A lookup compares only finitely many objects. -/
theorem finite_compared (path : List Component) (o : Object) : (o.compared d path).Finite := by
  induction path generalizing o with
  | nil =>
      refine Set.finite_empty.subset ?_
      rintro k ⟨_, h⟩
      exact absurd rfl h.path_ne_nil
  | cons c rest ih =>
      refine (finite_compared_core (fun o ho => finite_compared_cons c ih ho) o []).subset ?_
      rintro k ⟨snapshot, h⟩
      exact ⟨snapshot, h.to_core⟩

end Object

end TypedTemplate
