import ControlPlane.Api.Command
import ControlPlane.Proofs.Registry.Node

/-!
# Requests: what is read of them

The records and forms in the bodies of requests can be stored and read again
(`Command.fits_ofRequest`).
-/

namespace ControlPlane.Api

/-! ## Forms -/

def NodeForm.laws : NodeForm.codec.Laws :=
  .record (.cons (.required .string) <| .cons (.required .string) <| .cons (.required .u16) <|
    .cons (.orElse Metadata.laws fun _ h => Metadata.fits_default h) <|
    .cons (.orElse Network.laws fun _ h => Network.fits_default h) <|
    .cons (.orElse Capabilities.laws fun _ h => Capabilities.fits_default h) <|
    .cons (.orElse (.list .string) fun _ h => Codec.Laws.fits_nil _ h) .nil)
    (by decide) fun _ => rfl

def NodePatch.laws : NodePatch.codec.Laws :=
  .record (.cons (.ifGiven .string Codec.write_string_ne_null) <|
    .cons (.ifGiven .string Codec.write_string_ne_null) <|
    .cons (.ifGiven .u16 Codec.write_bounded_ne_null) <|
    .cons (.ifGiven Metadata.laws Codec.write_record_ne_null) <|
    .cons (.ifGiven Network.laws Codec.write_record_ne_null) <|
    .cons (.ifGiven Capabilities.laws Codec.write_record_ne_null) <|
    .cons (.ifGiven (.list .string) Codec.write_list_ne_null) .nil) (by decide) fun _ => rfl

/-- The node of a form that was read can be stored. -/
theorem NodeForm.fits_node {f : NodeForm} (h : NodeForm.laws.Fits Tree.depthLimit f)
    (id : String) : (f.node id).Fits := by
  obtain ⟨-, -, -, -, -, -, hc, -⟩ := h
  exact ⟨hc, Instant.optionInRange_none, Instant.optionInRange_none, Instant.optionInRange_none,
    Instant.optionInRange_none⟩

/-- A node can be stored after a patch that was read. -/
theorem NodePatch.fits_apply {p : NodePatch} (h : NodePatch.laws.Fits Tree.depthLimit p)
    {n : Node} (hn : n.Fits) : (p.apply n).Fits := by
  obtain ⟨-, -, -, -, -, -, hc, -⟩ := h
  refine ⟨?_, hn.registeredAt, hn.updatedAt, hn.lastHeartbeat, hn.lastActivity⟩
  show Capabilities.laws.Fits _ (p.capabilities.getD n.capabilities)
  cases hp : p.capabilities with
  | none => exact hn.capabilities
  | some c => exact hc c hp

/-! ## Bodies -/

/-- What is read of a body fits. -/
theorem readBody_yields {α : Type} {c : Codec α} (l : c.Laws) (hn : l.need ≤ Tree.depthLimit)
    (r : Http.Request) : (readBody c r).Yields (l.Fits Tree.depthLimit) := by
  intro a h
  unfold readBody at h
  split at h
  · split at h
    · cases h
    · split at h
      · cases h
      · split at h
        · rename_i b hb
          obtain rfl := Except.ok.inj h
          exact l.fits_of_read hn (Tree.fits_ofText _) hb
        · cases h
  · cases h

/-! ## Commands -/

namespace Command

/-- Whether what a command wants to be stored can be stored and read again. -/
def Fits : Command → Prop
  | .registerNode form => ∀ id, (form.node id).Fits
  | .patchNode _ patch => ∀ n : Node, n.Fits → (patch.apply n).Fits
  | .addModel m | .putModel _ m => models.laws.Fits m
  | .addReplica r | .putReplica _ r => replicas.laws.Fits r
  | _ => True

theorem onRoute_yields (r : Http.Request) (route : Route) : (onRoute r route).Yields Fits := by
  unfold onRoute
  cases route with
  | health =>
    dsimp only
    split
    · exact .pure trivial
    · exact .pure trivial
    · exact .throw _
  | nodes =>
    dsimp only
    split
    · exact .pure trivial
    · exact .pure trivial
    · exact (readBody_yields NodeForm.laws (by decide) r).bind fun f hf =>
        .pure (NodeForm.fits_node hf)
    · exact .throw _
  | node id =>
    dsimp only
    split
    · exact .bind .any fun _ _ => .pure trivial
    · exact .bind .any fun _ _ => .pure trivial
    · refine .bind .any fun id _ => ?_
      exact (readBody_yields NodePatch.laws (by decide) r).bind fun p hp =>
        .pure fun n => NodePatch.fits_apply hp
    · exact .bind .any fun _ _ => .pure trivial
    · exact .throw _
  | nodeStatus id =>
    dsimp only
    split
    · refine .bind .any fun id _ => ?_
      exact .bind .any fun _ _ => .pure trivial
    · exact .throw _
  | models =>
    dsimp only
    split
    · exact .pure trivial
    · exact .pure trivial
    · exact (readBody_yields Model.laws (by decide) r).bind fun m hm => .pure hm
    · exact .throw _
  | model id =>
    dsimp only
    split
    · exact .bind .any fun _ _ => .pure trivial
    · exact .bind .any fun _ _ => .pure trivial
    · refine .bind .any fun id _ => ?_
      exact (readBody_yields Model.laws (by decide) r).bind fun m hm => .pure hm
    · exact .bind .any fun _ _ => .pure trivial
    · exact .throw _
  | replicas =>
    dsimp only
    split
    · exact .bind .any fun _ _ => .pure trivial
    · exact .bind .any fun _ _ => .pure trivial
    · exact (readBody_yields Replica.laws (by decide) r).bind fun a ha => .pure ha
    · exact .throw _
  | replica id =>
    dsimp only
    split
    · exact .bind .any fun _ _ => .pure trivial
    · exact .bind .any fun _ _ => .pure trivial
    · refine .bind .any fun id _ => ?_
      exact (readBody_yields Replica.laws (by decide) r).bind fun a ha => .pure ha
    · exact .bind .any fun _ _ => .pure trivial
    · exact .throw _

/-- What a request asks for can be stored and read again. -/
theorem fits_ofRequest {r : Http.Request} {c : Command} (h : ofRequest r = .ok c) : c.Fits := by
  unfold ofRequest at h
  split at h
  · exact onRoute_yields r _ c h
  · cases h

end Command

end ControlPlane.Api
