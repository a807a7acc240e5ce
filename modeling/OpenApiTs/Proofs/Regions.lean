import OpenApiTs.Proofs.Operations
import OpenApiTs.Proofs.Written

/-!
# Regions that a run stays in

A run comes to the nodes of a document through paths, through the parts of schemas and of
operations, and through references. So all that it comes to is at locations with a property as soon
as the locations below paths have it, those that are borrowed or followed to have it, and it passes
from a location to the fields of a part there. The only keys under which a part never has its fields
are those on the way to the component schemas.

## Main definitions

* `Json.Region`: locations that are closed under this.
* `UseLaw.within`: the law of nodes in a region.

## Main results

* `Schema.HasPart.within`, `Operation.HasPart.within`: the parts of schemas and of operations are in
  the region.
* `UseLaw.within_covers`: so is all that a run comes to.
-/

namespace OpenApiTs

/-- Locations that a run does not leave through paths, through references to parameters, bodies and
responses, or through the fields of a part. -/
structure Json.Region (root : Json) (A : String → Prop) : Prop where
  path : ∀ path names, A (Pointer.descend "#/paths" (path :: names))
  borrowed : ∀ {role reference}, role ∈ [Role.parameter, .body, .response] →
    root.Refers role reference → A reference
  field : ∀ {location keyword}, A location → keyword ∉ ["schemas", "components"] →
    A (Pointer.child location keyword)
  entry : ∀ {location keyword}, A location → keyword ∉ ["schemas", "components"] → ∀ segment,
    A (Pointer.child (Pointer.child location keyword) segment)

open Json Json.Placement

section Parts

variable {run : Setting} {A : String → Prop} {role : Role} {item : PathItem} {o : Operation}
  {path pointer owner location place : String} {node : SchemaNode}

/-- The parts of a schema in a region are in the region. -/
theorem Schema.HasPart.within {root : Json} {s : Schema} (hp : s.HasPart location node place)
    (hA : root.Region A) (h : A location) : A place := by
  cases hp with
  | property => exact hA.entry h (by decide) _
  | additional => exact hA.field h (by decide)
  | items => exact hA.field h (by decide)
  | oneOf => exact hA.entry h (by decide) _
  | anyOf => exact hA.entry h (by decide) _
  | allOf => exact hA.entry h (by decide) _

/-- A located part is at its entry, or it is borrowed. -/
theorem Gen.within_locate {α : Type} {decode : Decoder α} {entry : Referable α} {x : α}
    (hA : run.tree.root.Region A) (hrole : role ∈ [Role.parameter, .body, .response])
    (hentry : (anywhere run.tree.root).Stands (.entry role) (Referable.decode decode) pointer entry)
    (hpointer : A pointer) (h : locate run decode pointer entry = .ok (x, owner)) : A owner := by
  cases entry with
  | item part =>
    cases h
    exact hpointer
  | reference reference =>
    obtain ⟨part, -, h⟩ := bind_eq_ok_iff.mp h
    obtain ⟨target, htarget, h⟩ := bind_eq_ok_iff.mp h
    cases h
    obtain rfl := DocumentTree.canonicalize_eq htarget
    exact hA.borrowed hrole hentry.refers

/-- The schema of a media type of a part in a region is in the region. -/
theorem MediaType.within_located {root : Json} {content : List (String × MediaType)}
    {mediaType : String} {located : LocatedNode} (hA : root.Region A) (howner : A owner)
    (h : MediaType.located? content owner = some (mediaType, located)) : A located.location := by
  obtain ⟨-, -, -, hlocation⟩ := MediaType.mem_of_located? h
  rw [hlocation]
  exact hA.field (hA.entry howner (by decide) mediaType) (by decide)

/-- The nodes of an operation are in every region. -/
theorem Operation.HasPart.within {method : Method} (hA : run.tree.root.Region A)
    (hitem : (anywhere run.tree.root).Stands .pathItem PathItem.record.decode
      (Pointer.child "#/paths" path) item)
    (ho : (anywhere run.tree.root).Stands .operation Operation.record.decode
      (Pointer.descend "#/paths" [path, method.name]) o)
    (h : o.HasPart run item path (Pointer.descend "#/paths" [path, method.name]) node location) :
    A location := by
  obtain ⟨hparameters, hrequest, hresponses⟩ := Operation.hasFields
  cases h with
  | request hentry hbody hlocated =>
    have hfield : (anywhere run.tree.root).Holds .single (.entry .body) _ _ o.requestBody :=
      ho.field rfl (by decide) hrequest (by rw [hentry]; nofun)
    rw [hentry] at hfield
    exact MediaType.within_located hA (Gen.within_locate hA (by decide) hfield.optional
      (hA.path path [method.name, "requestBody"]) hbody) hlocated
  | parameter hmerged hp hn =>
    refine hA.field ?_ (by decide)
    rcases Gen.mem_allParameters hmerged hp with ⟨j, entry, hj, hlocate⟩ | ⟨j, entry, hj, hlocate⟩
    · have hentries := hitem.field rfl List.mem_cons_self PathItem.hasField_parameters
        (List.ne_nil_of_mem (List.mem_of_getElem? hj))
      exact Gen.within_locate hA (by decide) (hentries.list hj)
        (hA.path path ["parameters", j.repr]) hlocate
    · have hentries := ho.field rfl List.mem_cons_self hparameters
        (List.ne_nil_of_mem (List.mem_of_getElem? hj))
      exact Gen.within_locate hA (by decide) (hentries.list hj)
        (hA.path path [method.name, "parameters", j.repr]) hlocate
  | response hbodies hb =>
    obtain ⟨status, entry, response, owner, mediaType, hentry, hlocate, hlocated⟩ :=
      Gen.mem_responseBodies hbodies hb
    have hfield : (anywhere run.tree.root).Holds .table (.entry .response) _ _ o.responses :=
      ho.field rfl (by decide) hresponses (List.ne_nil_of_mem hentry)
    exact MediaType.within_located hA (Gen.within_locate hA (by decide) (hfield.table hentry)
      (hA.path path [method.name, "responses", status]) hlocate) hlocated

end Parts

namespace UseLaw

variable {run : Setting} {A : String → Prop} (hkeys : run.tree.root.distinctKeys = true)
  (hA : run.tree.root.Region A)
  (hfollowed : ∀ {reference}, run.tree.root.Follows reference → run.excludes reference = false →
    A reference)

/-- The law of a region: nodes are in the region if those that references are followed to are. -/
def within : UseLaw run where
  At node location := A location ∧ (anywhere run.tree.root).Bears location node
  Refers := run.tree.root.Follows
  at_part h hp := ⟨hp.within hA h.1, h.2.part hp⟩
  refers_of_at h := .inl h.2.refers
  at_origin h hexcludes hfound := ⟨hfollowed h hexcludes, bears_target hkeys h hfound⟩
  Holds _ _ _ _ := True
  holds_of_use _ _ := trivial

theorem within_covers {d : Document} (hd : Document.ofTree run.tree.root = .ok d) :
    (within hkeys hA hfollowed).Covers d where
  components {name _} _ := .inr ⟨name, rfl⟩
  operations hitem ho _ _ h := by
    have hpath := Document.stands_path (anywhere _) hkeys hd hitem
    have hoperation := PathItem.stands_operation hpath ho
    exact ⟨h.within hA hpath hoperation, .inl (Operation.stands_part hkeys hpath hoperation h)⟩

end UseLaw

end OpenApiTs
