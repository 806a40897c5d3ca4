import TypedTemplate.Object.Interpolate
import TypedTemplate.Proofs.Outcome

/-!
# The budget of an evaluation

A budget only decides whether an evaluation comes to its end. Two evaluations of one object with different budgets
come to the same, unless the smaller budget runs out.
-/

namespace TypedTemplate

variable (d : Declarations)

namespace Object

/-! ## Lookup -/

section

variable {snapshot snapshot' : Object → Except Error Value}

theorem findPair_approximates (hs : ∀ o, Approximates (snapshot o) (snapshot' o)) (key : Object)
    (pairs : List (Object × Object)) :
    Approximates (findPair d snapshot key pairs) (findPair d snapshot' key pairs) := by
  induction pairs with
  | nil => exact .refl _
  | cons pair rest ih =>
      obtain ⟨k, v⟩ := pair
      simp only [findPair]
      split
      · refine (hs k).bind fun a => (hs key).bind fun b => ?_
        split
        · exact .refl _
        · exact ih
      · exact ih

theorem step_approximates (hs : ∀ o, Approximates (snapshot o) (snapshot' o)) (c : Component) (o : Object) :
    Approximates (step d snapshot c o) (step d snapshot' c o) := by
  obtain ⟨ty, payload, scopes, provided⟩ := o
  cases payload with
  | map pairs =>
      cases c with
      | dereference name => exact .refl _
      | index token =>
          simp only [step]
          split
          · split
            · exact .refl _
            · exact (findPair_approximates d hs _ _).bind fun found => .refl _
          · exact .refl _
  | _ => cases c <;> exact .refl _

theorem descend_approximates {next next' : Object → Except Error Object} (hn : ∀ o, Approximates (next o) (next' o))
    (o : Object) : Approximates (descend next o) (descend next' o) := by
  unfold descend
  split
  · exact hn o
  · exact .refl _

variable {go go' : Object → Except Error Object}

mutual

theorem tryAlternatives_approximates (hg : ∀ o, Approximates (go o) (go' o)) (missing : Error) (draft : Draft) :
    (ts : List Ty) → Approximates (tryAlternatives d go missing draft ts) (tryAlternatives d go' missing draft ts)
  | [] => by
      simp only [tryAlternatives]
      exact .refl _
  | t :: rest => by
      simp only [tryAlternatives]
      split
      · rcases tryAlternative_approximates hg missing draft t with ⟨e, he, hk⟩ | heq
        · exact .inl ⟨e, by simp [he, Error.isLookup, hk], hk⟩
        · rw [heq]
          cases tryAlternative d go' missing draft t with
          | ok found => exact .refl _
          | error e => exact .passOver (tryAlternatives_approximates hg missing draft rest) e
      · exact tryAlternatives_approximates hg missing draft rest

theorem tryAlternative_approximates (hg : ∀ o, Approximates (go o) (go' o)) (missing : Error) (draft : Draft) :
    (t : Ty) → Approximates (tryAlternative d go missing draft t) (tryAlternative d go' missing draft t)
  | .choice _ alternatives => by
      simp only [tryAlternative]
      exact tryAlternatives_approximates hg missing draft alternatives
  | .string | .integer | .float | .boolean | .enum _ _ | .list _ | .map _ _ | .struct _ _ => by
      simp only [tryAlternative]
      split
      · exact hg _
      · exact .refl _

end

theorem enter_approximates (hg : ∀ o, Approximates (go o) (go' o)) (r : Ref) (o : Object) :
    Approximates (enter d r go o) (enter d r go' o) := by
  unfold enter
  dsimp only
  split
  · exact tryAlternatives_approximates d (fun candidate => hg _) _ _ _
  · exact hg _

theorem findFrom_approximates (hs : ∀ o, Approximates (snapshot o) (snapshot' o)) (cs : List Component) (o : Object) :
    Approximates (findFrom d snapshot cs o) (findFrom d snapshot' cs o) := by
  induction cs generalizing o with
  | nil => exact .refl _
  | cons c rest ih =>
      cases rest with
      | nil =>
          simp only [findFrom]
          exact enter_approximates d (step_approximates d hs c) _ o
      | cons c' rest =>
          simp only [findFrom]
          exact enter_approximates d
            (fun o => (step_approximates d hs c o).bind (descend_approximates ih)) _ o

end

end Object

section

variable {snapshot snapshot' : Object → Except Error Value}

theorem Environment.findAmong_approximates (hs : ∀ o, Approximates (snapshot o) (snapshot' o)) (missing : Error)
    (candidates : List (Object × Ref)) :
    Approximates (findAmong d snapshot missing candidates) (findAmong d snapshot' missing candidates) := by
  induction candidates with
  | nil => exact .refl _
  | cons candidate others ih =>
      obtain ⟨o, rest⟩ := candidate
      simp only [findAmong]
      rcases Object.findFrom_approximates d hs rest.components o with ⟨e, he, hk⟩ | heq
      · exact .inl ⟨e, by simp [Object.findBy, he, Error.isLookup, hk], hk⟩
      · rw [Object.findBy, heq, ← Object.findBy]
        cases o.findBy d snapshot' rest with
        | ok found => exact .refl _
        | error e => exact .passOver ih e

theorem Scope.findBy_approximates (hs : ∀ o, Approximates (snapshot o) (snapshot' o)) (s : Scope) (r : Ref) :
    Approximates (s.findBy d snapshot r) (s.findBy d snapshot' r) := by
  cases s with
  | environment e =>
      simp only [findBy, Environment.findBy]
      split
      · exact .refl _
      · exact Environment.findAmong_approximates d hs _ _
  | object o => exact (Object.findFrom_approximates d hs r.components o).map _

end

/-! ## Interpolation -/

variable {eval eval' : Nat → Object → Interpolated}

theorem Object.snapshotBy_approximates {eval eval' : Object → Interpolated}
    (h : ∀ o, Approximates (eval o) (eval' o)) (o : Object) :
    Approximates (snapshotBy eval o) (snapshotBy eval' o) := by
  unfold snapshotBy
  rcases h o with ⟨e, he, hk⟩ | heq
  · exact .inl ⟨e, by simp [he, hk], hk⟩
  · rw [heq]
    exact .refl _

theorem Binding.renderBy_approximates (h : ∀ depth o, Approximates (eval depth o) (eval' depth o)) (depth : Nat)
    (b : Binding) : Approximates (b.renderBy eval depth) (b.renderBy eval' depth) := by
  unfold renderBy
  split
  · exact .refl _
  · cases b with
    | text s => exact .refl _
    | object o => exact (h (depth + 1) o).map _

theorem lookupBy_approximates (h : ∀ depth o, Approximates (eval depth o) (eval' depth o)) (depth : Nat)
    (scopes : List Scope) (r : Ref) :
    Approximates (lookupBy d eval depth scopes r) (lookupBy d eval' depth scopes r) := by
  induction scopes with
  | nil => exact .refl _
  | cons s rest ih =>
      simp only [lookupBy]
      rcases Scope.findBy_approximates d (Object.snapshotBy_approximates (h depth)) s r with ⟨e, he, hk⟩ | heq
      · exact .inl ⟨e, by simp [he, Error.isLookup, hk], hk⟩
      · rw [heq]
        cases s.findBy d (Object.snapshotBy (eval' depth)) r with
        | ok b => exact (Binding.renderBy_approximates h depth b).map some
        | error e => exact .passOver ih e

namespace Template

variable {lookup lookup' : Lookup}

theorem join_approximates (h : ∀ r, Approximates (lookup r) (lookup' r)) (fragments : List Fragment) :
    Approximates (join lookup fragments) (join lookup' fragments) := by
  induction fragments with
  | nil => exact .refl _
  | cons fragment rest ih =>
      cases fragment with
      | literal text => exact ih.bind fun _ => .refl _
      | reference r => exact (h r).bind fun _ => ih.bind fun _ => .refl _

theorem settle_approximates (h : ∀ r, Approximates (lookup r) (lookup' r)) (passes : Nat) (text : String) :
    Approximates (settle lookup passes text) (settle lookup' passes text) := by
  induction passes generalizing text with
  | zero => exact .refl _
  | succ passes ih =>
      simp only [settle]
      refine (Approximates.refl _).bind fun fragments => (join_approximates h fragments).bind fun joined => ?_
      split
      · exact .refl _
      · exact ih _

theorem resolve_approximates (h : ∀ r, Approximates (lookup r) (lookup' r)) (text : String) :
    Approximates (resolve lookup text) (resolve lookup' text) :=
  (settle_approximates h maxPasses text).bind fun _ =>
    (Approximates.refl _).bind fun fragments => (join_approximates h fragments).bind fun _ => .refl _

end Template

namespace Object

theorem resolveTemplate_approximates (h : ∀ depth o, Approximates (eval depth o) (eval' depth o)) (depth : Nat)
    (scopes : List Scope) (t : Ty) (text : String) :
    Approximates (resolveTemplate d eval depth scopes t text) (resolveTemplate d eval' depth scopes t text) :=
  (Template.resolve_approximates (lookupBy_approximates d h depth scopes) text).bind fun _ => .refl _

theorem settleChoice_approximates {eval eval' : Object → Interpolated} (h : ∀ o, Approximates (eval o) (eval' o))
    (scopes : List Scope) (t : Ty) (draft : Draft) (ts : List Ty) :
    Approximates (settleChoice d eval scopes t draft ts) (settleChoice d eval' scopes t draft ts) := by
  induction ts with
  | nil => exact .refl _
  | cons alternative rest ih =>
      simp only [settleChoice]
      split
      · exact ih
      · rename_i candidate _
        rcases h (candidate.inScopeAll scopes) with ⟨e, he, hk⟩ | heq
        · exact .inl ⟨e, by simp [he, hk], hk⟩
        · rw [heq]
          cases eval' (candidate.inScopeAll scopes) with
          | ok result => exact .refl _
          | error e =>
              dsimp only
              split
              · exact ih
              · exact .refl _

-- The two sides take the same steps through the object, so `bind` passes an exhausted budget on at each of them.
mutual

theorem interpolateIn_approximates (h : ∀ depth o, Approximates (eval depth o) (eval' depth o)) (depth : Nat)
    (outer : List Scope) : (o : Object) →
    Approximates (interpolateIn d eval depth outer o) (interpolateIn d eval' depth outer o)
  | ⟨ty, payload, scopes, _⟩ => by
      simp only [interpolateIn]
      exact (interpolatePayload_approximates h depth (scopes ++ outer) ty payload).bind fun _ => .refl _
termination_by structural x => x

theorem interpolatePayload_approximates (h : ∀ depth o, Approximates (eval depth o) (eval' depth o)) (depth : Nat)
    (scopes : List Scope) (ty : Ty) : (payload : Payload) →
    Approximates (interpolatePayload d eval depth scopes ty payload)
      (interpolatePayload d eval' depth scopes ty payload)
  | .scalar _ => .refl _
  | .template text => by
      simp only [interpolatePayload]
      exact resolveTemplate_approximates d h depth scopes ty text
  | .list elements => by
      simp only [interpolatePayload]
      exact (interpolateElements_approximates h depth scopes elements).bind fun _ => .refl _
  | .map pairs => by
      simp only [interpolatePayload]
      exact (interpolatePairs_approximates h depth scopes pairs).bind fun _ => .refl _
  | .struct fields => by
      simp only [interpolatePayload]
      exact (interpolateFields_approximates h depth (structScopes fields scopes) fields).bind fun _ => .refl _
  | .typed inner => by
      simp only [interpolatePayload]
      exact (interpolateIn_approximates h depth scopes inner).bind fun _ => .refl _
  | .untyped draft => by
      simp only [interpolatePayload]
      exact settleChoice_approximates d (h depth) scopes ty draft ty.alternatives
termination_by structural x => x

theorem interpolateElements_approximates (h : ∀ depth o, Approximates (eval depth o) (eval' depth o)) (depth : Nat)
    (scopes : List Scope) : (elements : List Object) →
    Approximates (interpolateElements d eval depth scopes elements) (interpolateElements d eval' depth scopes elements)
  | [] => .refl _
  | o :: rest => by
      simp only [interpolateElements]
      exact (interpolateIn_approximates h depth scopes o).bind fun _ =>
        (interpolateElements_approximates h depth scopes rest).bind fun _ => .refl _
termination_by structural x => x

theorem interpolatePairs_approximates (h : ∀ depth o, Approximates (eval depth o) (eval' depth o)) (depth : Nat)
    (scopes : List Scope) : (pairs : List (Object × Object)) →
    Approximates (interpolatePairs d eval depth scopes pairs) (interpolatePairs d eval' depth scopes pairs)
  | [] => .refl _
  | (k, v) :: rest => by
      simp only [interpolatePairs]
      exact (interpolateIn_approximates h depth scopes k).bind fun _ =>
        (interpolateIn_approximates h depth scopes v).bind fun _ =>
        (interpolatePairs_approximates h depth scopes rest).bind fun _ => .refl _
termination_by structural x => x

theorem interpolateFields_approximates (h : ∀ depth o, Approximates (eval depth o) (eval' depth o)) (depth : Nat)
    (scopes : List Scope) : (fields : List (String × Option Object)) →
    Approximates (interpolateFields d eval depth scopes fields) (interpolateFields d eval' depth scopes fields)
  | [] => .refl _
  | (_, none) :: rest => by
      simp only [interpolateFields]
      exact (interpolateFields_approximates h depth scopes rest).bind fun _ => .refl _
  | (_, some o) :: rest => by
      simp only [interpolateFields]
      exact (interpolateIn_approximates h depth scopes o).bind fun _ =>
        (interpolateFields_approximates h depth scopes rest).bind fun _ => .refl _
termination_by structural x => x

end

theorem interpolate_eq (o : Object) :
    o.interpolate d = interpolateIn d (interpolateWithin d (budget - 1)) 0 [] o := rfl

/-- A greater budget changes nothing but that it may last. -/
theorem interpolateWithin_approximates {m n : Nat} (hmn : m ≤ n) (depth : Nat) (o : Object) :
    Approximates (interpolateWithin d m depth o) (interpolateWithin d n depth o) := by
  induction m generalizing n depth o with
  | zero => exact .inl ⟨.exhausted, rfl, rfl⟩
  | succ m ih =>
      cases n with
      | zero => omega
      | succ n =>
          simp only [interpolateWithin]
          exact interpolateIn_approximates d (ih (Nat.le_of_succ_le_succ hmn)) depth [] o

end Object

end TypedTemplate
