import TypedTemplate.Proofs.Scope.Unknown
import TypedTemplate.Proofs.Template.Settled

/-!
# What resolving leaves

Resolving stops only where no scope knows any of the references that are left, and each of them stands in the text
with its placeholder.
-/

namespace TypedTemplate

namespace Template

variable {d : Declarations} {scopes : List Scope} {text joined : String} {left : List Ref}

/-- A reference for which scopes have no text cannot be found in any of them. -/
theorem find_of_lookup_eq_none {r : Ref} (h : lookup d scopes r = .ok none) :
    ∀ s ∈ scopes, ∃ e, s.find d r = .error e ∧ e.isLookup = true :=
  lookupBy_eq_none_iff.mp h

/-- Every reference that resolving leaves is unknown to all scopes, and what it leaves is a text in which the
placeholders of these references stand between literal texts, in their order. -/
theorem resolve_leaves (h : resolve (lookup d scopes) text = .ok (joined, left)) :
    (∀ r ∈ left, ∀ s ∈ scopes, ∃ e, s.find d r = .error e ∧ e.isLookup = true) ∧
      ∃ fs, Fragment.refs fs = left ∧ joined = String.join (fs.map Fragment.toString) := by
  have hnone := lookup_of_resolve h
  refine ⟨fun r hr => find_of_lookup_eq_none (hnone r hr), ?_⟩
  obtain ⟨settled, -, h⟩ := Except.bind_ok h
  obtain ⟨fs, -, h⟩ := Except.bind_ok h
  obtain ⟨⟨joined', unbound⟩, hjoin, h⟩ := Except.bind_ok h
  cases h
  rw [Fragment.join_unbound hnone] at hjoin
  cases hjoin
  exact ⟨fs, rfl, rfl⟩

/-- A site with a host, which may have a port. -/
def site : Declarations where
  next := 1
  finished := [(0, [("host", ⟨.string, true, none⟩), ("port", ⟨.integer, false, none⟩)])]

/-- A table of texts in front of a site without a port. -/
def siteScopes : List Scope :=
  [.environment ⟨[(.ofName "url", .text "\x7b\x7bhost\x7d\x7d:\x7b\x7b.port\x7d\x7d/\x7b\x7b&id&\x7d\x7d")]⟩,
    .object (.ofPayload (.struct 0 "Site") (.struct
      [("host", some (.ofPayload .string (.template "\x7b\x7bname\x7d\x7d.org"))), ("port", none)]))]

/-- What is left of an address has the references in it for which there is no text, and one that was escaped. -/
theorem resolve_leaves_site :
    resolve (lookup site siteScopes) "\x7b\x7burl\x7d\x7d\x7b\x7bname\x7d\x7d" =
        .ok ("\x7b\x7bname\x7d\x7d.org:\x7b\x7bport\x7d\x7d/\x7b\x7bid\x7d\x7d\x7b\x7bname\x7d\x7d",
          [.ofName "name", .ofName "port", .ofName "name"]) ∧
      ∀ s ∈ siteScopes, ∃ e, s.find site (.ofName "port") = .error e ∧ e.isLookup = true := by
  have h : resolve (lookup site siteScopes) "\x7b\x7burl\x7d\x7d\x7b\x7bname\x7d\x7d" =
      .ok ("\x7b\x7bname\x7d\x7d.org:\x7b\x7bport\x7d\x7d/\x7b\x7bid\x7d\x7d\x7b\x7bname\x7d\x7d",
        [.ofName "name", .ofName "port", .ofName "name"]) := by cbv
  exact ⟨h, (resolve_leaves h).1 _ (by simp)⟩

end Template

end TypedTemplate
