import ControlPlane.Api.Service
import ControlPlane.Proofs.Api.Form
import ControlPlane.Proofs.Registry.Backing

/-!
# The service on a sound store

On a sound store that works every command comes to a sound decision or fails by the fault of the
caller (`Command.decide_fair`). So every request gets a response, none tells an internal error, and
the store stays sound (`Service.respond_spec`).
-/

namespace ControlPlane.Api

variable {bound bound' : String → Int} {now : Instant}

/-! ## Decisions -/

/-- Whether what a command comes to keeps a store sound. -/
def Decision.Sound (bound : String → Int) : Decision → Prop
  | .tell _ => True
  | .make c _ _ => c.Sound bound

theorem fair_list {α : Type} {r : Registry α} {P : α → Prop} {s : Store} (h : r.Keeps P s) :
    Fair (fun as => ∀ a ∈ as, P a) (r.list s) := by
  obtain ⟨as, has, -, hp⟩ := Registry.list_spec h
  rw [has]
  exact .ok hp

theorem fair_replicasOfModel {s : Store} (h : s.data.Sound bound) (modelId : String) :
    Fair (fun _ => True) (replicasOfModel s modelId) := by
  by_cases hid : modelId = ""
  · subst hid
    exact .error (.inl rfl)
  · rw [replicasOfModel, Registry.requireId_of_ne hid]
    exact (fair_list h.keeps_replicas).bind fun _ _ => .ok trivial

theorem fair_applyPatch {s : Store} (h : s.data.Sound bound) {id : String}
    (hr : Room bound bound' id now) {patch : NodePatch}
    (hp : ∀ n : Node, n.Fits → (patch.apply n).Fits) :
    Fair (Change.Sound bound') (applyPatch s now id patch) := by
  refine (Node.require_fair h id).bind fun n ⟨_, _, _, hf⟩ => ?_
  exact Node.update_fair h hr (hp n hf)

/-- Every command comes to a sound decision or fails by the fault of the caller. -/
theorem Command.decide_fair {s : Store} (h : s.data.Sound bound)
    (hr : ∀ id, Room bound bound' id now) {c : Command} (hc : c.Fits) (policy : StatusPolicy)
    (fresh : String) : Fair (Decision.Sound bound') (c.decide policy now fresh s) := by
  cases c with
  | health => exact .ok trivial
  | listNodes => exact (fair_list h.keeps_nodes).bind fun _ _ => .ok trivial
  | getNode id => exact (Node.require_fair h id).bind fun _ _ => .ok trivial
  | registerNode form =>
    exact (Node.register_fair (hr fresh).inRange (hr fresh).clock (hc fresh)).bind
      fun _ hs => .ok hs
  | patchNode id patch => exact (fair_applyPatch h (hr id) hc).bind fun _ hs => .ok hs
  | setNodeStatus id status =>
    exact (Node.setStatus_fair h (hr id) policy status).bind fun _ hs => .ok hs
  | removeNode id => exact (nodes.remove_fair id).bind fun _ hs => .ok hs
  | listModels => exact (fair_list h.keeps_models).bind fun _ _ => .ok trivial
  | getModel id =>
    exact (Registry.require_spec models.laws h.keeps_models id).bind fun _ _ => .ok trivial
  | addModel m =>
    have hf : models.laws.Fits { m with id := fresh } := models.laws.fits_withId hc
    exact (Model.put_fair hf fresh).bind fun _ hs => .ok hs
  | putModel id m => exact (Model.put_fair hc id).bind fun _ hs => .ok hs
  | removeModel id => exact (models.remove_fair id).bind fun _ hs => .ok hs
  | listReplicas modelId =>
    cases modelId with
    | none => exact (fair_list h.keeps_replicas).bind fun _ _ => .ok trivial
    | some modelId => exact (fair_replicasOfModel h modelId).bind fun _ _ => .ok trivial
  | getReplica id =>
    exact (Registry.require_spec replicas.laws h.keeps_replicas id).bind fun _ _ => .ok trivial
  | addReplica r => exact (Replica.put_fair hc _).bind fun _ hs => .ok hs
  | putReplica id r => exact (Replica.put_fair hc id).bind fun _ hs => .ok hs
  | removeReplica id => exact (replicas.remove_fair id).bind fun _ hs => .ok hs

/-! ## Replies -/

/-- Whether a reply tells no error but those of the caller. -/
def Reply.Fair : Reply → Prop
  | .done _ | .refused _ => True
  | .failed e => e.OfCaller

theorem Refusal.status_ne (why : Refusal) : why.status ≠ 500 := by
  cases why with
  | badBody fault => cases fault <;> simp [Refusal.status]
  | _ => simp [Refusal.status]

theorem ErrorCode.status_ofError {e : RegistryError} (h : e.OfCaller) :
    (ErrorCode.ofError e).status ≠ 500 := by
  unfold ErrorCode.ofError
  split
  · decide
  · rename_i hi
    obtain ⟨kind, id, rfl⟩ := h.resolve_left hi
    simp [ErrorCode.status]

/-- A reply that tells no error but those of the caller is written as a response. -/
theorem Reply.response?_of_fair {reply : Reply} (h : reply.Fair) (requestId : String) :
    ∃ response, reply.response? requestId = some response ∧ response.status ≠ 500 := by
  cases reply with
  | done body => exact ⟨_, rfl, (by decide : 200 ≠ 500)⟩
  | refused why => exact ⟨_, rfl, why.status_ne⟩
  | failed e =>
    have hs := ErrorCode.status_ofError h
    cases e with
    | noLaterTime => simp [Reply.Fair, RegistryError.OfCaller, RegistryError.isInvalidArgument] at h
    | _ => exact ⟨_, rfl, hs⟩

/-! ## Requests -/

namespace Service

variable {s : Service}

theorem carryOut_spec (h : s.backing.Sound bound) (hb : ∀ id, bound id ≤ bound' id) {d : Decision}
    (hd : d.Sound bound') :
    (s.carryOut d).1.Fair ∧ (s.carryOut d).2.backing.Sound bound' := by
  cases d with
  | tell body => exact ⟨trivial, h.mono hb⟩
  | make c body named =>
    obtain ⟨b, hc, hs⟩ := h.commit hb hd
    rw [carryOut, hc]
    exact ⟨trivial, hs⟩

theorem handle_spec (h : s.backing.Sound bound) (hb : ∀ id, bound id ≤ bound' id)
    (hr : ∀ id, Room bound bound' id now) (settings : Settings) (r : Http.Request) :
    (s.handle settings now r).1.Fair ∧ (s.handle settings now r).2.backing.Sound bound' := by
  unfold handle
  cases hc : Command.ofRequest r with
  | error why => exact ⟨trivial, h.mono hb⟩
  | ok c =>
    dsimp only
    unfold obey
    rcases Command.decide_fair h.data hr (Command.fits_ofRequest hc) settings.policy
      (settings.ids s.issued) with ⟨e, he, hcaller⟩ | ⟨d, hd, hsound⟩
    · rw [he]
      exact ⟨hcaller, h.mono hb⟩
    · rw [hd]
      exact carryOut_spec h hb hsound

/-- Every request gets a response that tells no internal error, and the store stays sound. -/
theorem respond_spec (h : s.backing.Sound bound) (hb : ∀ id, bound id ≤ bound' id)
    (hr : ∀ id, Room bound bound' id now) (settings : Settings) (requestId : String)
    (r : Http.Request) :
    (∃ response, (s.respond settings now requestId r).1 = some response ∧
      response.status ≠ 500) ∧ (s.respond settings now requestId r).2.backing.Sound bound' := by
  have hspec := handle_spec h hb hr settings r
  unfold respond
  generalize s.handle settings now r = x at hspec ⊢
  obtain ⟨reply, s'⟩ := x
  obtain ⟨hfair, hsound⟩ := hspec
  obtain ⟨response, hresponse, hstatus⟩ := Reply.response?_of_fair hfair requestId
  dsimp only
  rw [hresponse]
  refine ⟨?_, hsound⟩
  by_cases hm : r.method = .head
  · exact ⟨response.withoutBody, by rw [if_pos hm]; rfl, hstatus⟩
  · exact ⟨response, if_neg hm, hstatus⟩

end Service

end ControlPlane.Api
