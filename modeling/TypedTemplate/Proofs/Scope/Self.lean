import TypedTemplate.Proofs.Object.Inhabits
import TypedTemplate.Proofs.Object.Left
import TypedTemplate.Proofs.Scope.Super

/-!
# How far `self` reaches

The fields of a struct see its own view of itself in front of the scopes of the enclosing struct, and among these is the
view that the enclosing struct has of itself, under the same name. So where a field of the inner struct is empty,
`self` reaches the field of that name in the enclosing one.
-/

namespace TypedTemplate

variable {d : Declarations}

def selfRef (x : String) : Ref := (Ref.ofName "self").concat (.ofName x)

/-! ## Behind `self` -/

theorem Scope.asSuper_misses (e : Environment) {name : String} (h : name ≠ "super") (rest : List Component)
    (snapshot : Object → Except Error Value) :
    (Scope.environment e).asSuper.Misses d snapshot ⟨.dereference name :: rest⟩ := by
  refine ⟨_, Environment.findBy_of_no_prefix d snapshot ?_, rfl⟩
  intro entry he
  obtain ⟨⟨key, b⟩, hb, rfl⟩ := List.mem_map.mp he
  simp [Ref.concat, Ref.ofName, h.symm]

/-- A struct's own scopes miss a field that is empty, also behind `self`. -/
theorem structScopes_miss_self {id : StructId} (hid : d.NoViews id) {fields : List (String × Option Object)}
    (hnodup : (fields.map Prod.fst).Nodup) (hknown : ∀ entry ∈ fields, (Entries.find? entry.1 (d.fields id)).isSome)
    {x : String} (hx : (Entries.find? x fields).join = none) (snapshot : Object → Except Error Value) :
    ∀ s ∈ [Scope.environment ((Environment.mk (fieldBindings fields)).under (.ofName "self")),
      Scope.environment ⟨fieldBindings fields⟩], s.Misses d snapshot (selfRef x) := by
  refine structScopes_miss_of (fun name o hm hprefix => ?_) (fun name o hm => ?_) snapshot
  · obtain rfl : name = x := by simpa [selfRef, Ref.concat, Ref.ofName] using hprefix
    rw [Entries.find?_of_mem hnodup hm] at hx
    cases hx
  · obtain ⟨field, hfield⟩ := Option.isSome_iff_exists.mp (hknown _ hm)
    simp [selfRef, Ref.concat, Ref.ofName, (hid _ (Entries.mem_of_find? hfield)).1]

theorem get?_self {fields : List (String × Option Object)} {x : String} {o : Object}
    (hx : Entries.find? x fields = some (some o)) :
    ((Environment.mk (fieldBindings fields)).under (.ofName "self")).get? (selfRef x) = some (.object o) := by
  rw [selfRef, Environment.get?_under, Environment.get?, find?_fieldBindings hx]

/-- What an inner struct finds behind `self` for a field that it leaves empty: the field of the enclosing struct. -/
theorem lookupBy_self (eval : Nat → Object → Interpolated) {inner fields : List (String × Option Object)}
    {cid pid : StructId} {cfs pfs : Field → Object → Prop} (hC : d.NoViews cid)
    (hinner : FieldsBuilt cfs (d.fields cid) inner) (hP : d.NoViews pid)
    (hfields : FieldsBuilt pfs (d.fields pid) fields) {x : String}
    (hx : (Entries.find? x inner).join = none) (depth : Nat) :
    lookupBy d eval depth (structScopes inner (structScopes fields [])) (selfRef x) =
      match (Entries.find? x fields).join with
      | some o => ((Binding.object o).renderBy eval depth).map some
      | none => .ok none := by
  let own : Environment := ⟨fieldBindings fields⟩
  have hchain : structScopes inner (structScopes fields []) =
      [.environment ((Environment.mk (fieldBindings inner)).under (.ofName "self")),
        .environment ⟨fieldBindings inner⟩] ++
      ([.environment (own.under (.ofName "self")), .environment own] ++
      ([Scope.environment (own.under (.ofName "self")), .environment own].map Scope.asSuper ++ [])) := by
    simp [structScopes, own]
  rw [hchain, lookupBy_append_missing d eval (structScopes_miss_self hC hinner.nodup hinner.known hx _)]
  cases hfind : (Entries.find? x fields).join with
  | some o =>
      have hself : (own.under (.ofName "self")).findBy d (Object.snapshotBy (eval depth)) (selfRef x) =
          .ok (.object o) := by
        unfold Environment.findBy
        rw [get?_self (Option.join_eq_some_iff.mp hfind)]
      exact lookupBy_cons_ok (s := .environment _) d eval hself
  | none =>
      rw [lookupBy_append_missing d eval (structScopes_miss_self hP hfields.nodup hfields.known hfind _),
        lookupBy_append_missing d eval]
      · rfl
      · intro s hs
        simp only [List.map_cons, List.map_nil, List.mem_cons, List.not_mem_nil, or_false] at hs
        rcases hs with rfl | rfl <;> exact Scope.asSuper_misses _ (by decide) _ _

/-! ## An empty field behind `self` -/

namespace Object

variable {p co go : Object} {pid cid : StructId} {pname cname x c g : String} {cf gf : Field} {w : Value}

theorem interpolate_placeholder {o : Object} {r : Ref} {text : String} (ht : o.ty = .string)
    (hp : o.payload = .template r.placeholder) (hr : Ref.parse r.address = .ok r)
    (hl : o.lookup d r = .ok (some text)) (hplain : hasPlaceholder text = false) :
    o.interpolate d = .ok (.ofPayload .string (.scalar (.string text)), []) := by
  have hresolve : Template.resolve (o.lookup d) r.placeholder = .ok (text, []) := by
    rw [Template.resolve_eq]
    exact (Template.resolveWithin_placeholder hr hl (Template.maxPasses - 1)).trans
      (Template.resolveWithin_of_noPlaceholder hplain (Template.maxPasses - 2))
  rw [interpolate_eq, interpolateIn_eq, hp, ht, interpolatePayload, resolveTemplate, List.append_nil]
  exact congrArg (· >>= _ >>= _) hresolve

/-- In a struct made from a plain value, to which nothing is bound, a field of an inner struct mentions behind `self` a
field that the inner struct leaves empty. The reference is left exactly if the enclosing struct leaves its field of that
name empty as well; and if that one is a plain scalar, its text is what the mention comes to. -/
theorem interpolate_self_iff (hd : (Ty.struct pid pname).PlainDefaults d) (hP : d.NoViews pid) (hC : d.NoViews cid)
    (hcf : Entries.find? c (d.fields pid) = some cf) (hcty : cf.ty = .struct cid cname)
    (hgf : Entries.find? g (d.fields cid) = some gf) (hgty : gf.ty = .string)
    (hp : (Ty.struct pid pname).construct d w.toInput = .ok p)
    (hc : p.present? c = some co) (hx : co.present? x = none) (hg : co.present? g = some go)
    (htext : go.payload = .template (selfRef x).placeholder)
    (hr : Ref.parse (selfRef x).address = .ok (selfRef x)) :
    (∀ resolved refs, p.interpolate d = .ok (resolved, refs) → (selfRef x ∈ refs ↔ p.present? x = none)) ∧
    ∀ xo s, p.present? x = some xo → xo.payload = .scalar s → hasPlaceholder s.toString = false →
      ∃ o, p.find d ⟨[.dereference c, .dereference g]⟩ = .ok o ∧
        o.interpolate d = .ok (.ofPayload .string (.scalar (.string s.toString)), []) := by
  obtain ⟨hplain, -⟩ := construct_fit hd hp
  obtain ⟨fields, hfields, hcc⟩ := struct_of_present? hc
  obtain ⟨inner, hinner, hgg⟩ := struct_of_present? hg
  have hpf := hplain.fields hfields
  have hcplain : co.Plain d cf.ty := hpf.built c co cf (Entries.mem_of_find? hcc) hcf
  rw [hcty] at hcplain
  have hcof := hcplain.fields hinner
  have hgplain : go.Plain d gf.ty := hcof.built g go gf (Entries.mem_of_find? hgg) hgf
  have hxinner : (Entries.find? x inner).join = none := by
    unfold present? at hx
    rwa [hinner] at hx
  have hxfields : p.present? x = (Entries.find? x fields).join := by
    unfold present?
    rw [hfields]
  have hlookup := lookupBy_self (interpolateWithin d (budget - 1)) hC hcof hP hpf hxinner 0
  have hchain : go.scopes ++ structScopes inner (co.scopes ++ structScopes fields p.scopes) =
      structScopes inner (structScopes fields []) := by
    rw [hgplain.scopes, hcplain.scopes, hplain.scopes, List.nil_append, List.nil_append]
  rw [← hchain, ← hxfields] at hlookup
  constructor
  · intro resolved refs h
    rw [interpolate_eq] at h
    cases hxo : p.present? x with
    | some xo =>
        -- The view that the outer struct has of itself binds the reference, and all parts of the struct see it.
        refine iff_of_false (fun hleft => ?_) (by simp)
        obtain ⟨q, _, _, _, hq, hqleft⟩ := (interpolateIn_mem_iff (by simp [hfields]) (by simp [hfields]) h).mp hleft
        have hbound := get?_self (Option.join_eq_some_iff.mp (hxfields.symm.trans hxo))
        refine not_mem_of_bound hq ?_ (Option.isSome_iff_exists.mpr ⟨_, hbound⟩) hqleft
        simp [innerScopes, inScopeAll, hfields, structScopes]
    | none =>
        rw [hxo] at hlookup
        obtain ⟨_, left, hco, hleft⟩ := interpolateIn_field hfields hcc h
        obtain ⟨_, left', hgo, hleft'⟩ := interpolateIn_field hinner hgg hco
        rw [List.append_nil] at hgo
        exact iff_of_true (hleft (hleft' ((leaves_iff hgo).mp (leaves_placeholder htext hr hlookup)))) rfl
  · intro xo s hxo hs hscalar
    rw [hxo] at hlookup
    have hrender : (Binding.object xo).renderBy (interpolateWithin d (budget - 1)) 0 = .ok s.toString := by
      obtain ⟨t, payload, scopes, provided⟩ := xo
      cases hs
      rfl
    refine ⟨_, find_inner d hfields hcc hinner hgg, ?_⟩
    refine interpolate_placeholder (hgplain.ty_eq.trans hgty) htext hr (hlookup.trans ?_) hscalar
    dsimp only
    rw [hrender]
    rfl

/-- A book with a chapter, each of which may go without a title. -/
def book : Declarations where
  next := 2
  finished := [
    (0, [("title", ⟨.string, false, none⟩), ("heading", ⟨.string, true, none⟩)]),
    (1, [("title", ⟨.string, false, none⟩), ("chapter", ⟨.struct 0 "Chapter", true, none⟩)])]

def bookValue (title : List (String × Value)) : Value :=
  .mapping (title ++ [("chapter", .mapping [("heading", .string "\x7b\x7bself.title\x7d\x7d")])])

def bookTitle : Object := .ofPayload .string (.scalar (.string "Emma"))

def chapterHeading : Object := .ofPayload .string (.template "\x7b\x7bself.title\x7d\x7d")

def bookChapter : Object :=
  .ofPayload (.struct 0 "Chapter") (.struct [("title", none), ("heading", some chapterHeading)])

def bookObject (title : Option Object) : Object :=
  .ofPayload (.struct 1 "Book") (.struct [("title", title), ("chapter", some bookChapter)])

theorem construct_book :
    (Ty.struct 1 "Book").construct book (bookValue [("title", .string "Emma")]).toInput =
        .ok (bookObject (some bookTitle)) ∧
      (Ty.struct 1 "Book").construct book (bookValue []).toInput = .ok (bookObject none) := ⟨by cbv, by cbv⟩

/-- A chapter without a title takes the one of its book, and leaves nothing. -/
theorem interpolate_self_book :
    (Ty.struct 1 "Book").construct book (bookValue [("title", .string "Emma")]).toInput =
        .ok (bookObject (some bookTitle)) ∧
    bookChapter.present? "title" = none ∧ chapterHeading.payload = .template (selfRef "title").placeholder ∧
    ∃ resolved, (bookObject (some bookTitle)).interpolate book = .ok (resolved, []) ∧ resolved.toValue =
      .mapping [("title", .string "Emma"), ("chapter", .mapping [("heading", .string "Emma")])] :=
  ⟨construct_book.1, rfl, by cbv, _, by cbv, by cbv⟩

theorem interpolate_self_iff_book :
    (∃ o, (bookObject (some bookTitle)).find book ⟨[.dereference "chapter", .dereference "heading"]⟩ = .ok o ∧
      o.interpolate book = .ok (bookTitle, [])) ∧
    ∃ resolved refs, (bookObject none).interpolate book = .ok (resolved, refs) ∧ selfRef "title" ∈ refs := by
  have hd : (Ty.struct 1 "Book").PlainDefaults book := Ty.plainDefaults_of_noDefaults _ (by decide)
  obtain ⟨htitled, huntitled⟩ := construct_book
  obtain ⟨resolved, refs, h⟩ : ∃ resolved refs, (bookObject none).interpolate book = .ok (resolved, refs) :=
    ⟨_, _, by cbv⟩
  have hc : ∀ title, (bookObject title).present? "chapter" = some bookChapter := fun _ => rfl
  have hg : bookChapter.present? "heading" = some chapterHeading := rfl
  constructor
  · have hreaches := interpolate_self_iff hd (by decide) (by decide) rfl rfl rfl rfl htitled (hc _) (x := "title") rfl
      hg (by cbv) (by cbv)
    exact hreaches.2 bookTitle (.string "Emma") rfl rfl (by cbv)
  · have hleft := interpolate_self_iff hd (by decide) (by decide) rfl rfl rfl rfl huntitled (hc _) (x := "title") rfl
      hg (by cbv) (by cbv)
    exact ⟨resolved, refs, h, (hleft.1 resolved refs h).mpr rfl⟩

end Object

end TypedTemplate
