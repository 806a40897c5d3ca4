import Mathlib
import TypedTemplate.Command.Run
import TypedTemplate.Proofs.Choice.OpenText
import TypedTemplate.Proofs.Object.Budget
import TypedTemplate.Proofs.Object.Compare
import TypedTemplate.Proofs.Scope.Plain
import TypedTemplate.Proofs.Scope.Super

/-!
# Binding a merge

Several environments of texts that are bound one before the other stand for what their merge does. In a struct
each of them is seen behind `super` as well, and in a struct inside of it the views are viewed again; block by block the
views of the environments stand for the view of the merge.
-/

namespace TypedTemplate

/-! ## Blocks of environments -/

namespace Environment

theorem get?_under_of_not_prefix {e : Environment} {outer r : Ref} (h : ∀ r', outer.concat r' ≠ r) :
    (e.under outer).get? r = none := by
  cases hg : (e.under outer).get? r with
  | none => rfl
  | some b =>
      obtain ⟨⟨key, _⟩, -, hkey⟩ := List.mem_map.mp (Entries.mem_of_find? hg)
      exact absurd (congrArg Prod.fst hkey) (h key)

/-- The environments are of texts, and the first of them that knows a reference has what the single one has. -/
structure StandFor (es : List Environment) (m : Environment) : Prop where
  texts : ∀ e ∈ es, e.TextOnly
  text : m.TextOnly
  get? : ∀ r, m.get? r = es.findSome? (·.get? r)

theorem StandFor.under {es : List Environment} {m : Environment} (h : StandFor es m) (outer : Ref) :
    StandFor (es.map (·.under outer)) (m.under outer) where
  texts e he := by
    obtain ⟨e', he', rfl⟩ := List.mem_map.mp he
    exact (h.texts e' he').under outer
  text := h.text.under outer
  get? r := by
    rw [List.findSome?_map]
    by_cases hr : ∃ r', outer.concat r' = r
    · obtain ⟨r', rfl⟩ := hr
      simp only [get?_under, Function.comp_def]
      exact h.get? r'
    · have hnone : ∀ e : Environment, (e.under outer).get? r = none :=
        fun e => get?_under_of_not_prefix fun r' hr' => hr ⟨r', hr'⟩
      rw [hnone, eq_comm, List.findSome?_eq_none_iff]
      exact fun e _ => hnone e

end Environment

/-- The second chain of scopes is the first one, with single environments in place of some blocks of them. -/
inductive Scope.Merged : List Scope → List Scope → Prop
  | nil : Merged [] []
  | same {c c'} (s : Scope) : Merged c c' → Merged (s :: c) (s :: c')
  | block {es m c c'} : Environment.StandFor es m → Merged c c' →
      Merged (es.map .environment ++ c) (.environment m :: c')

namespace Scope.Merged

variable {a b c c' : List Scope}

theorem append_left (own : List Scope) (h : Merged c c') : Merged (own ++ c) (own ++ c') := by
  induction own with
  | nil => exact h
  | cons s rest ih => exact .same s ih

theorem refl (c : List Scope) : Merged c c := by
  induction c with
  | nil => exact .nil
  | cons s rest ih => exact .same s ih

theorem append (h : Merged a b) (hc : Merged c c') : Merged (a ++ c) (b ++ c') := by
  induction h with
  | nil => exact hc
  | same s _ ih => exact .same s ih
  | block hm _ ih =>
      rw [List.append_assoc]
      exact .block hm ih

theorem asSuper (h : Merged c c') : Merged (c.map Scope.asSuper) (c'.map Scope.asSuper) := by
  induction h with
  | nil => exact .nil
  | same s _ ih => exact .same _ ih
  | @block es m c c' hm _ ih =>
      have hviews : (es.map Scope.environment).map Scope.asSuper =
          (es.map (·.under (.ofName "super"))).map Scope.environment := by simp [Scope.asSuper]
      rw [List.map_append, hviews]
      exact .block (hm.under _) ih

theorem structScopes (fields : List (String × Option Object)) (h : Merged c c') :
    Merged (structScopes fields c) (structScopes fields c') := .same _ (.same _ (h.append h.asSuper))

end Scope.Merged

/-! ## Lookup -/

section

variable (d : Declarations) (eval : Nat → Object → Interpolated)

theorem Environment.TextOnly.lookupBy_cons {e : Environment} (he : e.TextOnly) (depth : Nat) (rest : List Scope)
    (r : Ref) : lookupBy d eval depth (.environment e :: rest) r =
      match e.get? r with
      | some b => (b.renderBy eval depth).map some
      | none => lookupBy d eval depth rest r := by
  have hfind := he.findBy (r := r) d (Object.snapshotBy (eval depth))
  rw [he.get?]
  cases ht : e.text? r with
  | some s =>
      rw [ht] at hfind
      exact lookupBy_cons_ok (s := .environment e) d eval hfind
  | none =>
      rw [ht] at hfind
      exact lookupBy_cons_missing (s := .environment e) d eval hfind rfl

theorem lookupBy_block {es : List Environment} (h : ∀ e ∈ es, e.TextOnly) (depth : Nat) (rest : List Scope) (r : Ref) :
    lookupBy d eval depth (es.map Scope.environment ++ rest) r =
      match es.findSome? (·.get? r) with
      | some b => (b.renderBy eval depth).map some
      | none => lookupBy d eval depth rest r := by
  induction es with
  | nil => rfl
  | cons e es ih =>
      rw [List.map_cons, List.cons_append, (h e (by simp)).lookupBy_cons, List.findSome?_cons]
      cases e.get? r with
      | some b => rfl
      | none => exact ih fun e he => h e (by simp [he])

theorem Scope.Merged.lookupBy {c c' : List Scope} (h : Merged c c') (depth : Nat) :
    lookupBy d eval depth c = lookupBy d eval depth c' := by
  funext r
  induction h with
  | nil => rfl
  | same s _ ih => simp only [TypedTemplate.lookupBy, ih]
  | block hm _ ih => rw [lookupBy_block d eval hm.texts, hm.text.lookupBy_cons, hm.get?, ih]

end

/-! ## Interpolation -/

namespace Object

section

variable {d : Declarations} {eval : Nat → Object → Interpolated} {depth : Nat} {c c' : List Scope}

theorem settleChoice_congr {eval : Object → Interpolated}
    (h : ∀ o : Object, eval (o.inScopeAll c) = eval (o.inScopeAll c')) (t : Ty) (draft : Draft) (ts : List Ty) :
    settleChoice d eval c t draft ts = settleChoice d eval c' t draft ts := by
  induction ts with
  | nil => rfl
  | cons alternative rest ih => simp only [settleChoice, h, ih]

theorem interpolateIn_merged
    (heval : ∀ c c' (o : Object), Scope.Merged c c' → eval depth (o.inScopeAll c) = eval depth (o.inScopeAll c'))
    (h : Scope.Merged c c') (o : Object) : interpolateIn d eval depth c o = interpolateIn d eval depth c' o := by
  induction o using parts_induction generalizing c c' with
  | _ o ih =>
    obtain ⟨t, payload, own, provided⟩ := o
    have hown := h.append_left own
    rw [interpolateIn_eq, interpolateIn_eq]
    cases payload with
    | scalar s => rfl
    | template text => simp only [interpolatePayload, resolveTemplate, hown.lookupBy]
    | list elements =>
        have helements : interpolateElements d eval depth (own ++ c) elements = _ :=
          interpolateElements_compare comparison_eq (List.forall₂_same.mpr fun o ho => ih o ho hown)
        simp only [interpolatePayload, helements]
    | map pairs =>
        have hpairs := interpolatePairs_compare comparison_eq (List.forall₂_same.mpr fun pair hm =>
          ⟨ih pair.1 (Payload.mem_parts_map.mpr ⟨pair.1, pair.2, hm, .inl rfl⟩) hown,
            ih pair.2 (Payload.mem_parts_map.mpr ⟨pair.1, pair.2, hm, .inr rfl⟩) hown⟩)
        simp only [interpolatePayload, hpairs]
    | struct fields =>
        have hfields := interpolateFields_compare comparison_eq (List.forall₂_same.mpr fun field hm =>
          ⟨rfl, Entries.rel_self fun o ho =>
            ih o (Payload.mem_parts_struct.mpr ⟨field.1, ho ▸ hm⟩) (hown.structScopes fields)⟩)
        simp only [interpolatePayload, hfields]
    | typed inner => simp only [interpolatePayload, ih inner (List.mem_singleton.mpr rfl) hown]
    | untyped draft => simp only [interpolatePayload, settleChoice_congr (heval _ _ · hown)]

variable (d) in
theorem interpolateWithin_merged (n depth : Nat) (h : Scope.Merged c c') (o : Object) :
    interpolateWithin d n depth (o.inScopeAll c) = interpolateWithin d n depth (o.inScopeAll c') := by
  induction n generalizing depth c c' o with
  | zero => rfl
  | succ n ih =>
      rw [interpolateWithin, interpolateWithin, interpolateIn_inScopeAll, interpolateIn_inScopeAll, List.append_nil,
        List.append_nil]
      exact interpolateIn_merged (fun c c' o h => ih depth h o) h o

/-! ## Checking -/

variable {sub : Object → Checked} {provided : List Scope}

theorem checkElements_congr {elements : List Object} (t : Ty)
    (h : ∀ o ∈ (Payload.list elements).parts, checkIn d eval sub c provided o = checkIn d eval sub c' provided o) :
    checkElements d eval sub c provided t elements = checkElements d eval sub c' provided t elements := by
  induction elements with
  | nil => rfl
  | cons o rest ih =>
      rw [checkElements, checkElements, h o (by simp [Payload.parts]), ih fun o ho => h o (List.mem_cons_of_mem _ ho)]

theorem checkPairs_congr {pairs : List (Object × Object)} (t : Ty)
    (h : ∀ o ∈ (Payload.map pairs).parts, checkIn d eval sub c provided o = checkIn d eval sub c' provided o) :
    checkPairs d eval sub c provided t pairs = checkPairs d eval sub c' provided t pairs := by
  induction pairs with
  | nil => rfl
  | cons pair rest ih =>
      obtain ⟨k, v⟩ := pair
      simp only [Payload.parts, List.flatMap_cons, List.cons_append, List.nil_append, List.forall_mem_cons] at h
      rw [checkPairs, checkPairs, h.1, h.2.1, ih h.2.2]

theorem checkFields_congr {fields : List (String × Option Object)}
    (h : ∀ o ∈ (Payload.struct fields).parts, checkIn d eval sub c provided o = checkIn d eval sub c' provided o) :
    checkFields d eval sub c provided fields = checkFields d eval sub c' provided fields := by
  induction fields with
  | nil => rfl
  | cons field rest ih =>
      obtain ⟨name, value⟩ := field
      cases value with
      | none =>
          rw [checkFields, checkFields, ih h]
      | some o =>
          rw [checkFields, checkFields, h o (by simp [Payload.parts]), ih fun o ho => h o (List.mem_cons_of_mem _ ho)]

theorem checkAlternatives_congr {see see' : Object → Object} (h : ∀ o, sub (see o) = sub (see' o)) (t : Ty)
    (draft : Draft) (ts : List Ty) :
    checkAlternatives d sub see t draft ts = checkAlternatives d sub see' t draft ts := by
  induction ts with
  | nil => rfl
  | cons alternative rest ih => simp only [checkAlternatives, h, ih]

theorem checkIn_merged
    (hsub : ∀ c c' provided (o : Object), Scope.Merged c c' →
      sub ((o.inScopeAll c).providedAll provided) = sub ((o.inScopeAll c').providedAll provided))
    (h : Scope.Merged c c') (o : Object) : checkIn d eval sub c provided o = checkIn d eval sub c' provided o := by
  induction o using parts_induction generalizing c c' provided with
  | _ o ih =>
    obtain ⟨t, payload, own, provided'⟩ := o
    have hown := h.append_left own
    rw [checkIn, checkIn]
    cases payload with
    | scalar s => rfl
    | template text => simp only [checkPayload, interpolatePayload, resolveTemplate, hown.lookupBy]
    | list elements => simp only [checkPayload, checkElements_congr t fun o ho => ih o ho hown]
    | map pairs => simp only [checkPayload, checkPairs_congr t fun o ho => ih o ho hown]
    | struct fields => simp only [checkPayload, checkFields_congr fun o ho => ih o ho (hown.structScopes fields)]
    | typed inner => simp only [checkPayload, ih inner (List.mem_singleton.mpr rfl) hown]
    | untyped draft => simp only [checkPayload, checkAlternatives_congr (hsub _ _ _ · hown)]

variable (d) in
theorem checkWithin_merged (n : Nat) (h : Scope.Merged c c') (provided : List Scope) (o : Object) :
    checkWithin d n ((o.inScopeAll c).providedAll provided) =
      checkWithin d n ((o.inScopeAll c').providedAll provided) := by
  induction n generalizing c c' provided o with
  | zero => rfl
  | succ n ih =>
      obtain ⟨t, payload, own, own'⟩ := o
      have hsees : ∀ c, checkIn d (interpolateWithin d n) (checkWithin d n) [] []
          (((Object.mk t payload own own').inScopeAll c).providedAll provided) =
          checkIn d (interpolateWithin d n) (checkWithin d n) c provided ⟨t, payload, own, own'⟩ := by
        intro c
        simp only [inScopeAll, providedAll, checkIn, List.append_nil]
      rw [checkWithin, checkWithin, hsees, hsees]
      exact checkIn_merged (fun c c' provided o h => ih h provided o) h _

/-! ## Binding -/

variable (d) in
/-- Chains of which one is the other with blocks of environments merged are the same to an object behind them. -/
theorem withScopes_merged (h : Scope.Merged c c') (o : Object) :
    Object.interpolate d { o with scopes := c } = Object.interpolate d { o with scopes := c' } ∧
      Object.check d { o with scopes := c } = Object.check d { o with scopes := c' } := by
  obtain ⟨t, payload, own, provided⟩ := o
  have hbare : ∀ c, Object.mk t payload c provided = (Object.mk t payload [] provided).inScopeAll c := fun c => rfl
  have hinterpolate := interpolateWithin_merged d budget 0 h ⟨t, payload, [], provided⟩
  have hcheck := checkWithin_merged d budget h [] ⟨t, payload, [], provided⟩
  simp only [providedAll_nil] at hcheck
  dsimp only
  rw [hbare c, hbare c']
  refine ⟨hinterpolate, ?_⟩
  rw [check, check, hcheck]

end

variable (d : Declarations)

/-- To bind environments of plain texts is to bind their merge. -/
theorem bindAll_plain {es : List Environment} (hes : ∀ e ∈ es, e.Plain) (o : Object) :
    (o.bindAll (es.map .environment)).interpolate d = (o.bindAll [.environment (.merge es)]).interpolate d ∧
      (o.bindAll (es.map .environment)).check d = (o.bindAll [.environment (.merge es)]).check d := by
  have hstand : Environment.StandFor es.reverse (.merge es) :=
    ⟨fun e he => (hes e (List.mem_reverse.mp he)).texts, .merge fun e he => (hes e he).texts,
      Environment.get?_merge hes⟩
  have hmerged : Scope.Merged ((es.map Scope.environment).reverse ++ o.scopes)
      ([Scope.environment (.merge es)].reverse ++ o.scopes) := by
    rw [← List.map_reverse, List.reverse_singleton]
    exact .block hstand (.refl o.scopes)
  exact withScopes_merged d hmerged o

end Object

/-! ## Bindings on the command line -/

namespace Command

variable {files : Files}

theorem named_ok {α : Type} {what : String} {x : Except Error α} {a : α} (h : named what x = .ok a) : x = .ok a := by
  cases x with
  | error e => cases h
  | ok b =>
      cases h
      rfl

theorem loadEnvironment_ok {path : String} {e : Environment} (h : loadEnvironment files path = .ok e) :
    ∃ v, Environment.ofValue v = .ok e := by
  obtain ⟨v, -, h⟩ := Except.bind_ok h
  exact ⟨v, named_ok h⟩

theorem parseBinding_ok {binding : String} {entry : Ref × String} (h : parseBinding binding = .ok entry) :
    ∃ s, Ref.parse s = .ok entry.1 := by
  unfold parseBinding at h
  dsimp only at h
  split at h
  · cases h
  · obtain ⟨r, hr, h⟩ := Except.bind_ok h
    cases h
    exact ⟨_, named_ok hr⟩

theorem mapM_ok {α β : Type} {f : α → Loading β} {as : List α} {bs : List β} (h : as.mapM f = .ok bs) :
    ∀ b ∈ bs, ∃ a, f a = .ok b := by
  induction as generalizing bs with
  | nil =>
      cases h
      rintro _ ⟨⟩
  | cons a as ih =>
      rw [List.mapM_cons] at h
      obtain ⟨b, hb, h⟩ := Except.bind_ok h
      obtain ⟨bs, hbs, h⟩ := Except.bind_ok h
      cases h
      exact List.forall_mem_cons.mpr ⟨⟨a, hb⟩, ih hbs⟩

theorem mapM_map_ok {α β γ : Type} {f : α → Loading β} {g : β → γ} {as : List α} {cs : List γ}
    (h : as.mapM (fun a => do return g (← f a)) = .ok cs) : ∃ bs, as.mapM f = .ok bs ∧ cs = bs.map g := by
  induction as generalizing cs with
  | nil =>
      cases h
      exact ⟨[], rfl, rfl⟩
  | cons a as ih =>
      rw [List.mapM_cons] at h
      obtain ⟨c, hc, h⟩ := Except.bind_ok h
      obtain ⟨b, hb, hc⟩ := Except.bind_ok hc
      obtain ⟨cs, hcs, h⟩ := Except.bind_ok h
      obtain ⟨bs, hbs, rfl⟩ := ih hcs
      cases hc
      cases h
      refine ⟨b :: bs, ?_, rfl⟩
      rw [List.mapM_cons, hb, hbs]
      rfl

/-- The scopes that are loaded are the environments of the files in their order, and behind them that of the texts. -/
theorem loadScopes_ok {sources : BindingSources} {scopes : List Scope} (h : loadScopes files sources = .ok scopes) :
    ∃ environments texts bound, sources.files.mapM (loadEnvironment files) = .ok environments ∧
      sources.texts.mapM parseBinding = .ok texts ∧ scopes = (environments ++ bound).map .environment ∧
      (∀ e ∈ bound, e.Plain) ∧
      ∀ r, bound.reverse.findSome? (·.get? r) = (texts.reverse.find? (·.1 = r)).map (Binding.text ·.2) := by
  obtain ⟨environments, henvironments, h⟩ := Except.bind_ok h
  dsimp only at h
  split at h
  · rename_i hempty
    cases h
    rw [List.isEmpty_iff] at hempty
    exact ⟨environments, [], [], henvironments, by simp [hempty, pure, Except.pure], by simp, by simp, fun r => rfl⟩
  · obtain ⟨entries, hentries, h⟩ := Except.bind_ok h
    obtain ⟨texts, htexts, rfl⟩ := mapM_map_ok (g := fun entry : Ref × String =>
      (entry.1.address, Entry.value (.string entry.2))) hentries
    split at h
    · rename_i e he
      cases h
      have hparsed : ∀ entry ∈ texts, ∃ s, Ref.parse s = .ok entry.1 := by
        intro entry hentry
        obtain ⟨binding, hbinding⟩ := mapM_ok htexts entry hentry
        exact parseBinding_ok hbinding
      obtain ⟨hplain, hget⟩ := Environment.ofEntries_texts hparsed he
      exact ⟨environments, texts, [e], henvironments, htexts, by simp, by simp [hplain], fun r => by simp [hget r]⟩
    · cases h

end Command

/-! ## The last one wins -/

/-- To bind environments of plain mappings is to bind their merge, in which the last one that binds a reference wins. On
the command line a text wins over files, and of texts and of files the last one. -/
theorem bindAll_merge (d : Declarations) :
    (∀ (es : List Environment) (o : Object), (∀ e ∈ es, ∃ v, Environment.ofValue v = .ok e) →
      (o.bindAll (es.map .environment)).interpolate d = (o.bindAll [.environment (.merge es)]).interpolate d ∧
      (o.bindAll (es.map .environment)).check d = (o.bindAll [.environment (.merge es)]).check d ∧
      ∀ r, (Environment.merge es).get? r = es.reverse.findSome? (·.get? r)) ∧
    ∀ (files : Files) (sources : BindingSources) (scopes : List Scope),
      Command.loadScopes files sources = .ok scopes →
      ∃ environments texts m, sources.files.mapM (Command.loadEnvironment files) = .ok environments ∧
        sources.texts.mapM Command.parseBinding = .ok texts ∧
        (∀ o : Object, (o.bindAll scopes).interpolate d = (o.bindAll [.environment m]).interpolate d ∧
          (o.bindAll scopes).check d = (o.bindAll [.environment m]).check d) ∧
        ∀ r, m.get? r = ((texts.reverse.find? (·.1 = r)).map (Binding.text ·.2)).or
          (environments.reverse.findSome? (·.get? r)) := by
  constructor
  · intro es o hes
    have hplain : ∀ e ∈ es, e.Plain := by
      intro e he
      obtain ⟨v, hv⟩ := hes e he
      exact Environment.ofValue_plain hv
    obtain ⟨hinterpolate, hcheck⟩ := o.bindAll_plain d hplain
    exact ⟨hinterpolate, hcheck, Environment.get?_merge hplain⟩
  · intro files sources scopes h
    obtain ⟨environments, texts, bound, henvironments, htexts, rfl, hbound, hget⟩ := Command.loadScopes_ok h
    have hplain : ∀ e ∈ environments ++ bound, e.Plain := by
      intro e he
      rcases List.mem_append.mp he with he | he
      · obtain ⟨path, hpath⟩ := Command.mapM_ok henvironments e he
        obtain ⟨v, hv⟩ := Command.loadEnvironment_ok hpath
        exact Environment.ofValue_plain hv
      · exact hbound e he
    refine ⟨environments, texts, .merge (environments ++ bound), henvironments, htexts,
      fun o => o.bindAll_plain d hplain, fun r => ?_⟩
    rw [Environment.get?_merge hplain, List.reverse_append, List.findSome?_append, hget]

/-- A note inside a box. -/
def boxes : Declarations where
  next := 2
  finished := [(0, [("text", ⟨.string, true, none⟩)]), (1, [("note", ⟨.struct 0 "Note", true, none⟩)])]

def boxObject : Object := .ofPayload (.struct 1 "Box") (.struct [
  ("note", some (.ofPayload (.struct 0 "Note") (.struct [
    ("text", some (.ofPayload .string (.template "\x7b\x7bx\x7d\x7d \x7b\x7bsuper.y\x7d\x7d")))])))])

def boxSources : BindingSources where
  texts := ["x=4", "y=2", "x=5"]

/-- The later environment and the later text win for `x`, while the earlier environment is still seen behind `super`. -/
theorem bindAll_merge_boxes : ∃ e e' scopes resolved resolved',
    Environment.ofValue (.mapping [("x", .string "1"), ("y", .string "2")]) = .ok e ∧
    Environment.ofValue (.mapping [("x", .string "3")]) = .ok e' ∧
    (boxObject.bindAll [.environment (.merge [e, e'])]).interpolate boxes = .ok (resolved, []) ∧
    (boxObject.bindAll [.environment e, .environment e']).interpolate boxes = .ok (resolved, []) ∧
    resolved.toValue = .mapping [("note", .mapping [("text", .string "3 2")])] ∧
    Command.loadScopes (.ofTable []) boxSources = .ok scopes ∧
    (boxObject.bindAll scopes).interpolate boxes = .ok (resolved', []) ∧
    resolved'.toValue = .mapping [("note", .mapping [("text", .string "5 2")])] ∧
    ∃ m, (boxObject.bindAll [.environment m]).interpolate boxes = .ok (resolved', []) ∧
      m.get? (.ofName "x") = some (.text "5") := by
  obtain ⟨e, e', resolved, he, he', hresolved, hvalue⟩ : ∃ e e' resolved,
      Environment.ofValue (.mapping [("x", .string "1"), ("y", .string "2")]) = .ok e ∧
      Environment.ofValue (.mapping [("x", .string "3")]) = .ok e' ∧
      (boxObject.bindAll [.environment (.merge [e, e'])]).interpolate boxes = .ok (resolved, []) ∧
      resolved.toValue = .mapping [("note", .mapping [("text", .string "3 2")])] :=
    ⟨_, _, _, by cbv, by cbv, by cbv, by cbv⟩
  obtain ⟨scopes, resolved', hscopes, hresolved', hvalue'⟩ : ∃ scopes resolved',
      Command.loadScopes (.ofTable []) boxSources = .ok scopes ∧
      (boxObject.bindAll scopes).interpolate boxes = .ok (resolved', []) ∧
      resolved'.toValue = .mapping [("note", .mapping [("text", .string "5 2")])] :=
    ⟨_, _, by cbv, by cbv, by cbv⟩
  obtain ⟨hmerge, -⟩ := (bindAll_merge boxes).1 [e, e'] boxObject (by
    simp only [List.forall_mem_cons, List.not_mem_nil, false_imp_iff, implies_true, and_true]
    exact ⟨⟨_, he⟩, _, he'⟩)
  obtain ⟨environments, texts, m, henvironments, htexts, hm, hget⟩ :=
    (bindAll_merge boxes).2 (.ofTable []) boxSources scopes hscopes
  refine ⟨e, e', scopes, resolved, resolved', he, he', hresolved, hmerge.trans hresolved, hvalue, hscopes, hresolved',
    hvalue', m, (hm boxObject).1.symm.trans hresolved', ?_⟩
  obtain rfl : texts = [(.ofName "x", "4"), (.ofName "y", "2"), (.ofName "x", "5")] := by
    have hcomputed : boxSources.texts.mapM Command.parseBinding =
        .ok [(.ofName "x", "4"), (.ofName "y", "2"), (.ofName "x", "5")] := by cbv
    exact Except.ok.inj (htexts.symm.trans hcomputed)
  rw [hget]
  rfl

end TypedTemplate
