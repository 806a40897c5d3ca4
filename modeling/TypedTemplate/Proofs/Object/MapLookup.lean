import TypedTemplate.Proofs.Object.FindResolved

/-!
# Maps as they are looked up and as they are dumped

A map is a list of pairs. A token leads to the value of the first pair whose key comes to the same, seen without the
scopes of the map; in the plain data of a map, keys come to what they do in its scopes, and the last pair of a key
counts. The two agree where keys hold no placeholders and none comes twice.
-/

namespace TypedTemplate

namespace Object

variable {d : Declarations}

/-! ## The first pair -/

/-- Whether a key, seen in its own scopes, comes to the same as the token. -/
def keyIs (d : Declarations) (token key : Object) : Except Error Bool := do
  return (← snapshotBy (interpolate d) key) == (← snapshotBy (interpolate d) token)

/-- The pair at the position is the first one whose key comes to the same as the token. -/
inductive FirstAt (d : Declarations) (token : Object) : List (Object × Object) → Nat → Prop
  | here {pair rest} : keyIs d token pair.1 = .ok true → FirstAt d token (pair :: rest) 0
  | there {pair rest i} : keyIs d token pair.1 = .ok false → FirstAt d token rest i →
      FirstAt d token (pair :: rest) (i + 1)

theorem findPair_cons {token k v : Object} {rest : List (Object × Object)} (hk : k.ty.same d token.ty = true) :
    findPair d (snapshotBy (interpolate d)) token ((k, v) :: rest) =
      (keyIs d token k).bind fun found =>
        if found then .ok (some v) else findPair d (snapshotBy (interpolate d)) token rest := by
  simp only [findPair, hk, if_true, keyIs]
  cases snapshotBy (interpolate d) k with
  | error e => rfl
  | ok a =>
      cases snapshotBy (interpolate d) token with
      | error e => rfl
      | ok b => rfl

/-- What is found for a token is the value of the first pair with its key. -/
theorem findPair_eq_some_iff {token v : Object} {pairs : List (Object × Object)}
    (htypes : ∀ pair ∈ pairs, pair.1.ty.same d token.ty = true) :
    findPair d (snapshotBy (interpolate d)) token pairs = .ok (some v) ↔
      ∃ i k, FirstAt d token pairs i ∧ pairs[i]? = some (k, v) := by
  induction pairs with
  | nil => simp [findPair]
  | cons pair rest ih =>
      obtain ⟨k, w⟩ := pair
      replace ih := ih fun pair hm => htypes pair (List.mem_cons_of_mem _ hm)
      rw [findPair_cons (htypes (k, w) (by simp))]
      constructor
      · intro h
        obtain ⟨found, hfound, h⟩ := Except.bind_ok h
        cases found with
        | true =>
            cases h
            exact ⟨0, k, .here hfound, rfl⟩
        | false =>
            obtain ⟨i, k', hfirst, hv⟩ := ih.mp h
            exact ⟨i + 1, k', .there hfound hfirst, hv⟩
      · rintro ⟨i, k', hfirst, hv⟩
        cases hfirst with
        | here hfound =>
            cases hv
            rw [hfound]
            rfl
        | there hfound hfirst =>
            rw [hfound]
            exact ih.mpr ⟨_, k', hfirst, hv⟩

/-! ## The pairs as they are dumped -/

/-- The pair is dumped as the entry: under the text that the key comes to in the scopes, and with the plain data of the
value there. -/
def DumpedAs (d : Declarations) (scopes : List Scope) (pair : Object × Object) (entry : String × Value) : Prop :=
  (pair.1.inScopeAll scopes).render d = .ok entry.1 ∧ (pair.2.inScopeAll scopes).get d = .ok entry.2

theorem get_eq_ok_iff {o : Object} {v : Value} :
    o.get d = .ok v ↔ ∃ resolved, o.interpolate d = .ok (resolved, []) ∧ v = resolved.toValue := by
  constructor
  · intro h
    obtain ⟨⟨resolved, refs⟩, hresolved, h⟩ := Except.bind_ok h
    dsimp only at h
    split at h
    · cases h
      exact ⟨resolved, List.isEmpty_iff.mp ‹_› ▸ hresolved, rfl⟩
    · cases h
  · rintro ⟨resolved, hresolved, rfl⟩
    rw [get, hresolved]
    rfl

theorem pairValues_dumped {scopes : List Scope} {pairs others : List (Object × Object)}
    (h : List.Forall₂ (fun pair pair' =>
      ComesTo d (interpolateWithin d (budget - 1)) 0 scopes [] pair.1 pair'.1 ∧
        ComesTo d (interpolateWithin d (budget - 1)) 0 scopes [] pair.2 pair'.2) pairs others) :
    List.Forall₂ (DumpedAs d scopes) pairs (pairValues others) := by
  induction h with
  | nil => exact .nil
  | @cons pair pair' _ _ hpair _ ih =>
      obtain ⟨hk, hv⟩ := hpair
      refine .cons ⟨?_, ?_⟩ ih
      · rw [render, interpolate_inScopeAll, hk.eq_ok]
        rfl
      · exact get_eq_ok_iff.mpr ⟨_, (interpolate_inScopeAll _ _).trans hv.eq_ok, rfl⟩

/-- The plain data of a map are its pairs as they are dumped, the last one of a key counting. -/
theorem get_map {t : Ty} {pairs : List (Object × Object)} {scopes provided : List Scope} {v : Value}
    (h : get d ⟨t, .map pairs, scopes, provided⟩ = .ok v) :
    ∃ dumped, List.Forall₂ (DumpedAs d scopes) pairs dumped ∧ v = .mapping (Entries.ofList dumped) := by
  obtain ⟨resolved, hresolved, rfl⟩ := get_eq_ok_iff.mp h
  rw [interpolate_eq] at hresolved
  obtain ⟨others, rfl, hothers⟩ := interpolateIn_map hresolved
  rw [List.append_nil] at hothers
  exact ⟨pairValues others, pairValues_dumped hothers, rfl⟩

/-! ## Lookup -/

theorem ty_of_constructText {k : String} {token : Object} (h : Ty.string.construct d (.ofText k) = .ok token) :
    token.ty = .string := by
  rcases Ty.constructScalar_ok (s := .string k) h with ⟨_, -, rfl⟩ | ⟨_, rfl⟩ <;> rfl

/-- In a map with texts as keys a token leads to the value of the first pair that has it as its key. -/
theorem find_index_iff {value : Ty} {pairs : List (Object × Object)} {scopes provided : List Scope}
    (htypes : ∀ pair ∈ pairs, pair.1.ty.same d .string = true) {k : String} {found : Object} :
    find d ⟨.map .string value, .map pairs, scopes, provided⟩ ⟨[.index k]⟩ = .ok found ↔
      ∃ token i pair, Ty.string.construct d (.ofText k) = .ok token ∧ FirstAt d token pairs i ∧
        pairs[i]? = some pair ∧ found = pair.2.inScopeAll scopes := by
  rw [find, findBy, findFrom, enter_eq d rfl]
  simp only [step]
  cases hconstruct : Ty.string.construct d (.ofText k) with
  | error e => simp
  | ok token =>
      rw [← ty_of_constructText hconstruct] at htypes
      have hfirst := fun v => findPair_eq_some_iff (v := v) htypes
      constructor
      · intro h
        obtain ⟨value?, hvalue, h⟩ := Except.bind_ok h
        cases value? with
        | none => cases h
        | some v =>
            cases h
            obtain ⟨i, key, hi, hpair⟩ := (hfirst v).mp hvalue
            exact ⟨token, i, (key, v), rfl, hi, hpair, rfl⟩
      · rintro ⟨_, i, ⟨key, v⟩, heq, hi, hpair, rfl⟩
        cases heq
        simp only [(hfirst v).mpr ⟨i, key, hi, hpair⟩]
        rfl

/-! ## Plain keys -/

/-- The keys are texts without placeholders, and none comes twice. -/
structure PlainKeys (pairs : List (Object × Object)) : Prop where
  plain : ∀ pair ∈ pairs, ∃ text, pair.1.payload = .scalar (.string text) ∧ hasPlaceholder text = false
  nodup : (pairs.map fun pair => pair.1.toString).Nodup

theorem toString_scalar {o : Object} {s : Scalar} (h : o.payload = .scalar s) : o.toString = s.toString := by
  obtain ⟨t, payload, own, provided⟩ := o
  cases h
  simp only [toString]

theorem keyIs_text {token key : Object} {s text : String} (htoken : token.payload = .scalar (.string s))
    (hkey : key.payload = .scalar (.string text)) : keyIs d token key = .ok (decide (text = s)) := by
  rw [keyIs, snapshotBy_scalar htoken, snapshotBy_scalar hkey]
  change Except.ok (Value.string text == Value.string s) = _
  rw [Except.ok.injEq, Bool.eq_iff_iff, Value.string_beq, decide_eq_true_eq]

theorem PlainKeys.firstAt {pairs : List (Object × Object)} (h : PlainKeys pairs) {token : Object} {i : Nat}
    {pair : Object × Object} (hpair : pairs[i]? = some pair)
    (htoken : token.payload = .scalar (.string pair.1.toString)) : FirstAt d token pairs i := by
  induction pairs generalizing i with
  | nil => cases hpair
  | cons first rest ih =>
      obtain ⟨text, htext, -⟩ := h.plain first (by simp)
      have hnodup := h.nodup
      rw [List.map_cons, List.nodup_cons] at hnodup
      cases i with
      | zero =>
          cases hpair
          refine .here ?_
          rw [keyIs_text htoken htext, toString_scalar htext, Scalar.toString, decide_eq_true rfl]
      | succ i =>
          refine .there ?_ (ih ⟨fun pair hm => h.plain pair (List.mem_cons_of_mem _ hm), hnodup.2⟩ hpair)
          have hne : first.1.toString ≠ pair.1.toString :=
            fun heq => hnodup.1 (heq ▸ List.mem_map.mpr ⟨pair, List.mem_of_getElem? hpair, rfl⟩)
          rw [keyIs_text htoken htext, decide_eq_false]
          simpa only [toString_scalar htext, Scalar.toString] using hne

theorem PlainKeys.dumped_keys {pairs : List (Object × Object)} (h : PlainKeys pairs) {scopes : List Scope}
    {dumped : List (String × Value)} (hdumped : List.Forall₂ (DumpedAs d scopes) pairs dumped) :
    List.Forall₂ (fun pair entry => pair.1.toString = entry.1) pairs dumped := by
  refine ((List.forall₂_and_left _ _).mpr ⟨h.plain, hdumped⟩).imp ?_
  rintro ⟨key, value⟩ entry ⟨⟨text, htext, -⟩, hrender, -⟩
  have hkey : (key.inScopeAll scopes).payload = .scalar (.string text) := htext
  rw [render_scalar d hkey] at hrender
  cases hrender
  exact toString_scalar htext

theorem constructText_plain {k : String} (h : hasPlaceholder k = false) :
    Ty.string.construct d (.ofText k) = .ok (.ofPayload .string (.scalar (.string k))) := by
  have hconstruct : Ty.string.construct d (.ofText k) = Ty.string.constructScalar (.string k) := rfl
  rw [hconstruct, Ty.constructScalar, h]
  rfl

/-! ## Lookup and dump -/

/-- Whether the object found by a token has the given plain data. -/
def FindsAs (d : Declarations) (o : Object) (k : String) (w : Value) : Prop :=
  ∃ found u, o.find d ⟨[.index k]⟩ = .ok found ∧ found.get d = .ok u ∧ (u == w) = true

/-- What a token leads to is dumped with the pair that it comes from. -/
theorem findsAs_iff {value : Ty} {pairs : List (Object × Object)} {scopes provided : List Scope}
    (htypes : ∀ pair ∈ pairs, pair.1.ty.same d .string = true) {dumped : List (String × Value)}
    (hdumped : List.Forall₂ (DumpedAs d scopes) pairs dumped) {k : String} {w : Value} :
    FindsAs d ⟨.map .string value, .map pairs, scopes, provided⟩ k w ↔
      ∃ token i entry, Ty.string.construct d (.ofText k) = .ok token ∧ FirstAt d token pairs i ∧
        dumped[i]? = some entry ∧ (entry.2 == w) = true := by
  constructor
  · rintro ⟨found, u, hfound, hu, hw⟩
    obtain ⟨token, i, pair, htoken, hi, hpair, rfl⟩ := (find_index_iff htypes).mp hfound
    obtain ⟨entry, hentry, -, hget⟩ := Entries.exists_getElem?_forall₂ hdumped hpair
    cases hget.symm.trans hu
    exact ⟨token, i, entry, htoken, hi, hentry, hw⟩
  · rintro ⟨token, i, entry, htoken, hi, hentry, hw⟩
    obtain ⟨pair, hpair, -, hget⟩ := Entries.exists_getElem?_forall₂ hdumped.flip hentry
    exact ⟨_, _, (find_index_iff htypes).mpr ⟨token, i, pair, htoken, hi, hpair, rfl⟩, hget, hw⟩

/-- Whether a map that was dumped has under a key, found by its text, what it was dumped with there: exactly if the
first pair with that key has it. It has where all keys are plain and none comes twice. -/
theorem find_dumped_iff {o : Object} {value : Ty} (ho : o.Shaped d) (ht : o.ty = .map .string value) {v : Value}
    (h : o.get d = .ok v) :
    ∃ pairs dumped, o.payload = .map pairs ∧ List.Forall₂ (DumpedAs d o.scopes) pairs dumped ∧
      v = .mapping (Entries.ofList dumped) ∧
      ∀ k w, Entries.find? k (Entries.ofList dumped) = some w →
        (o.FindsAs d k w ↔ ∃ token i entry, Ty.string.construct d (.ofText k) = .ok token ∧
          FirstAt d token pairs i ∧ dumped[i]? = some entry ∧ (entry.2 == w) = true) ∧
        (PlainKeys pairs → o.FindsAs d k w) := by
  cases ho with
  | scalar hscalar | template hscalar => cases ht; cases hscalar
  | list | struct | typed | untyped => cases ht
  | @map key _ pairs scopes provided hsame _ _ =>
      cases ht
      have htypes : ∀ pair ∈ pairs, pair.1.ty.same d .string = true := fun pair hm => (hsame _ _ hm).1
      obtain ⟨dumped, hdumped, rfl⟩ := get_map h
      refine ⟨pairs, dumped, rfl, hdumped, rfl, fun k w hw => ⟨findsAs_iff htypes hdumped, fun hplain => ?_⟩⟩
      have hkeys := hplain.dumped_keys hdumped
      have hnodup : (dumped.map Prod.fst).Nodup := by
        have hkeys : pairs.map (fun pair => pair.1.toString) = dumped.map Prod.fst := by
          rw [← List.forall₂_eq_eq_eq]
          exact List.forall₂_map_left_iff.mpr (List.forall₂_map_right_iff.mpr hkeys)
        exact hkeys ▸ hplain.nodup
      rw [Entries.ofList_of_nodup hnodup] at hw
      obtain ⟨i, hi⟩ := List.getElem?_of_mem (Entries.mem_of_find? hw)
      obtain ⟨pair, hpair, hkey : pair.1.toString = k⟩ := Entries.exists_getElem?_forall₂ hkeys.flip hi
      obtain ⟨text, htext, hnone⟩ := hplain.plain pair (List.mem_of_getElem? hpair)
      have hk : k = text := by rw [← hkey, toString_scalar htext, Scalar.toString]
      refine (findsAs_iff htypes hdumped).mpr ⟨_, i, _, constructText_plain (hk ▸ hnone),
        hplain.firstAt hpair ?_, hi, Value.beq_self _⟩
      rw [hkey]
      rfl

def scopeOfX (text : String) : Scope := .environment ⟨[(.ofName "x", .text text)]⟩

/-- The dumped map has the key that its scopes give for a template, and lookup does not find it there. -/
theorem find_templated_key :
    ∃ o f, (Ty.map .string .integer).construct {}
        (Value.mapping [("\x7b\x7bx\x7d\x7d", .scalar (.integer 1))]).toInput = .ok o ∧
      (o.bindAll [scopeOfX "a"]).get {} = .ok (.mapping [("a", .scalar (.integer 1))]) ∧
      (o.bindAll [scopeOfX "a"]).find {} ⟨[.index "a"]⟩ = .error f :=
  ⟨.ofPayload (.map .string .integer)
    (.map [(.ofPayload .string (.template "\x7b\x7bx\x7d\x7d"), .ofPayload .integer (.scalar (.integer 1)))]), _,
    by cbv, by cbv, by cbv⟩

def labelsValue : Value := .mapping [("a", .string "\x7b\x7bx\x7d\x7d"), ("b", .string "2")]

def labelPairs : List (Object × Object) :=
  [(.ofPayload .string (.scalar (.string "a")), .ofPayload .string (.template "\x7b\x7bx\x7d\x7d")),
    (.ofPayload .string (.scalar (.string "b")), .ofPayload .string (.scalar (.string "2")))]

theorem construct_labels :
    (Ty.map .string .string).construct {} labelsValue.toInput =
      .ok (.ofPayload (.map .string .string) (.map labelPairs)) := by
  cbv

theorem plainKeys_labels : PlainKeys labelPairs where
  plain := by
    simp only [labelPairs, List.forall_mem_cons]
    exact ⟨⟨"a", rfl, by cbv⟩, ⟨"b", rfl, by cbv⟩, by simp⟩
  nodup := by decide

theorem find_labels :
    ∃ o, (Ty.map .string .string).construct {} labelsValue.toInput = .ok o ∧
      (o.bindAll [scopeOfX "1"]).get {} = .ok (.mapping [("a", .string "1"), ("b", .string "2")]) ∧
      (o.bindAll [scopeOfX "1"]).FindsAs {} "a" (.string "1") := by
  refine ⟨_, construct_labels, by cbv, ?_⟩
  have hshaped : Shaped {} (.ofPayload (.map .string .string) (.map labelPairs)) :=
    construct_shaped (Declarations.built_of_noDefaults (by decide)) (by simp [Value.toInput_objects]) construct_labels
  have hget : ((Object.ofPayload (.map .string .string) (.map labelPairs)).inScopeAll [scopeOfX "1"]).get {} =
      .ok (.mapping [("a", .string "1"), ("b", .string "2")]) := by cbv
  obtain ⟨pairs, dumped, hpairs, -, hv, hagree⟩ := find_dumped_iff (hshaped.inScopeAll _) rfl hget
  cases hpairs
  have hentry : Entries.find? "a" (Entries.ofList dumped) = some (.string "1") := by
    rw [← Value.mapping.inj hv]
    rfl
  exact (hagree "a" (.string "1") hentry).2 plainKeys_labels

end Object

end TypedTemplate
