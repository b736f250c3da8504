import ControlPlane.Api.Service
import ControlPlane.Proofs.Except

/-!
# Requests: what they can come to

The method of a request tells whether its command only looks (`Command.looks_ofRequest`), and such a
command comes to an answer alone, every other one to a change (`Command.decide_tells`). What the
service makes of a request is then one of five things (`Service.Deals`), and the status of the
response shows whether it is done (`Reply.ShownBy`).
-/

namespace ControlPlane

/-- Whether a method only looks. -/
def Http.Method.looks : Http.Method → Bool
  | .get | .head => true
  | _ => false

namespace Api

open Http (Request)

/-! ## Looking and changing -/

namespace Command

/-- Whether a command only looks. -/
def looks : Command → Bool
  | .health | .listNodes | .getNode _ | .listModels | .getModel _ | .listReplicas _
  | .getReplica _ => true
  | _ => false

/-- The method tells whether a command only looks. -/
theorem looks_onRoute (r : Request) (route : Route) :
    (onRoute r route).Yields fun c => c.looks = r.method.looks := by
  unfold onRoute
  generalize r.method = method
  cases route with
  | health =>
    cases method with
    | get | head => exact .pure rfl
    | _ => exact .throw _
  | nodes =>
    cases method with
    | get | head => exact .pure rfl
    | post => exact .bind .any fun _ _ => .pure rfl
    | _ => exact .throw _
  | node id =>
    cases method with
    | get | head | delete => exact .bind .any fun _ _ => .pure rfl
    | patch => exact .bind .any fun _ _ => .bind .any fun _ _ => .pure rfl
    | _ => exact .throw _
  | nodeStatus id =>
    cases method with
    | put => exact .bind .any fun _ _ => .bind .any fun _ _ => .pure rfl
    | _ => exact .throw _
  | models =>
    cases method with
    | get | head => exact .pure rfl
    | post => exact .bind .any fun _ _ => .pure rfl
    | _ => exact .throw _
  | model id | replica id =>
    cases method with
    | get | head | delete => exact .bind .any fun _ _ => .pure rfl
    | put => exact .bind .any fun _ _ => .bind .any fun _ _ => .pure rfl
    | _ => exact .throw _
  | replicas =>
    cases method with
    | get | head | post => exact .bind .any fun _ _ => .pure rfl
    | _ => exact .throw _

theorem ofRequest_of_path {r : Request} {path : String} {route : Route} (hp : r.path = path)
    (hr : Route.ofPath? path = some route) : ofRequest r = onRoute r route := by
  unfold ofRequest
  rw [hp, hr]

theorem looks_ofRequest {r : Request} {c : Command} (h : ofRequest r = .ok c) :
    c.looks = r.method.looks := by
  unfold ofRequest at h
  split at h
  · exact looks_onRoute r _ c h
  · cases h

end Command

/-- Whether a decision is an answer alone. -/
def Decision.tells : Decision → Bool
  | .tell _ => true
  | .make _ _ _ => false

/-- A command that only looks comes to an answer alone, every other one to a change. -/
theorem Command.decide_tells (policy : StatusPolicy) (now : Instant) (fresh : String) (s : Store)
    (c : Command) : (c.decide policy now fresh s).Yields fun d => d.tells = c.looks := by
  cases c with
  | health => exact .pure rfl
  | listReplicas modelId => cases modelId <;> exact .bind .any fun _ _ => .pure rfl
  | _ => exact .bind .any fun _ _ => .pure rfl

/-! ## Replies -/

namespace Reply

/-- Whether a reply tells that something is done. -/
def isDone : Reply → Bool
  | .done _ => true
  | _ => false

theorem status_refusal (why : Refusal) : 400 ≤ why.status := by
  cases why with
  | badBody fault => cases fault <;> simp [Refusal.status]
  | _ => simp [Refusal.status]

/-- How responses show replies: by the status 200 if something is done, by the status of an error or
by no response at all if not. -/
inductive ShownBy : Reply → Option Http.Response → Prop
  | done {reply : Reply} {a : Http.Response} (isDone : reply.isDone = true)
      (status : a.status = 200) : ShownBy reply (some a)
  | error {reply : Reply} {a : Http.Response} (isDone : reply.isDone = false)
      (status : 400 ≤ a.status) : ShownBy reply (some a)
  | nothing {reply : Reply} (isDone : reply.isDone = false) : ShownBy reply none

theorem shownBy_response? (reply : Reply) (requestId : String) :
    reply.ShownBy (reply.response? requestId) := by
  cases reply with
  | done body => exact .done rfl rfl
  | refused why => exact .error rfl (status_refusal why)
  | failed e =>
    have hstatus : 400 ≤ (ErrorCode.ofError e).status := by
      cases ErrorCode.ofError e <;> decide
    cases e with
    | noLaterTime => exact .nothing rfl
    | _ => exact .error rfl hstatus

namespace ShownBy

variable {reply : Reply} {response : Option Http.Response}

/-- A response without its body shows the same. -/
theorem withoutBody (h : reply.ShownBy response) :
    reply.ShownBy (response.map (·.withoutBody)) := by
  cases h with
  | done isDone status => exact .done isDone status
  | error isDone status => exact .error isDone status
  | nothing isDone => exact .nothing isDone

theorem status_eq {a : Http.Response} (h : reply.ShownBy (some a)) :
    a.status = 200 ∨ 400 ≤ a.status := by
  cases h with
  | done _ status => exact .inl status
  | error _ status => exact .inr status

theorem isDone_iff (h : reply.ShownBy response) :
    reply.isDone = true ↔ ∃ a, response = some a ∧ a.status = 200 := by
  cases h with
  | done isDone status => simp [isDone, status]
  | nothing isDone => simp [isDone]
  | error isDone status =>
    simp only [isDone, Bool.false_eq_true, Option.some.injEq, exists_eq_left', false_iff]
    omega

end ShownBy

end Reply

/-! ## Requests -/

namespace Service

/-- What a service makes of a request: it is refused, it cannot be done, it is answered from what is
there, or it comes to a change that the store makes or refuses. -/
inductive Deals (settings : Settings) (now : Instant) (r : Request) (s : Service) :
    Reply → Service → Prop
  | refused {why : Refusal} (read : Command.ofRequest r = .error why) :
      Deals settings now r s (.refused why) s
  | failed {c : Command} {e : RegistryError} (read : Command.ofRequest r = .ok c)
      (decided : c.decide settings.policy now (settings.ids s.issued) s.backing.store = .error e) :
      Deals settings now r s (.failed e) s
  | told {c : Command} {body : Json} (read : Command.ofRequest r = .ok c)
      (decided : c.decide settings.policy now (settings.ids s.issued) s.backing.store =
        .ok (.tell body)) : Deals settings now r s (.done body) s
  | made {c : Command} {change : Change} {body : Json} {named : Bool} {b : Backing}
      (read : Command.ofRequest r = .ok c)
      (decided : c.decide settings.policy now (settings.ids s.issued) s.backing.store =
        .ok (.make change body named)) (commit : s.backing.commit change = (none, b)) :
      Deals settings now r s (.done body) ⟨b, if named then s.issued + 1 else s.issued⟩
  | unmade {c : Command} {change : Change} {body : Json} {named : Bool} {e : StoreError}
      {b : Backing} (read : Command.ofRequest r = .ok c)
      (decided : c.decide settings.policy now (settings.ids s.issued) s.backing.store =
        .ok (.make change body named)) (commit : s.backing.commit change = (some e, b)) :
      Deals settings now r s (.failed (.store e)) { s with backing := b }

theorem deals_handle (settings : Settings) (now : Instant) (r : Request) (s : Service) :
    Deals settings now r s (s.handle settings now r).1 (s.handle settings now r).2 := by
  unfold handle
  cases read : Command.ofRequest r with
  | error why => exact .refused read
  | ok c =>
    dsimp only
    unfold obey
    cases decided : c.decide settings.policy now (settings.ids s.issued) s.backing.store with
    | error e => exact .failed read decided
    | ok d =>
      cases d with
      | tell body => exact .told read decided
      | make change body named =>
        unfold carryOut
        rcases commit : s.backing.commit change with ⟨_ | e, b⟩
        · simp only [commit]
          exact .made read decided commit
        · simp only [commit]
          exact .unmade read decided commit

variable {settings : Settings} {now : Instant} {r : Request} {s s' : Service} {reply : Reply}

theorem handle_of_read {c : Command} (read : Command.ofRequest r = .ok c) :
    s.handle settings now r = s.obey settings now c := by
  unfold handle
  rw [read]

section Obey

variable {c : Command} {body : Json}

theorem obey_of_error {e : RegistryError}
    (decided : c.decide settings.policy now (settings.ids s.issued) s.backing.store = .error e) :
    s.obey settings now c = (.failed e, s) := by
  unfold obey
  rw [decided]

theorem obey_of_tell
    (decided : c.decide settings.policy now (settings.ids s.issued) s.backing.store =
      .ok (.tell body)) : s.obey settings now c = (.done body, s) := by
  unfold obey
  rw [decided]
  rfl

/-- A command that comes to a change which the store makes. -/
theorem obey_of_commit {change : Change} {named : Bool} {b : Backing} {issued : Nat}
    (decided : c.decide settings.policy now (settings.ids s.issued) s.backing.store =
      .ok (.make change body named)) (commit : s.backing.commit change = (none, b))
    (count : (if named then s.issued + 1 else s.issued) = issued) :
    s.obey settings now c = (.done body, ⟨b, issued⟩) := by
  subst count
  unfold obey
  rw [decided]
  dsimp only
  unfold carryOut
  simp only [commit]

end Obey

/-- The response is the one of the reply, unless a head alone was asked for. -/
theorem respond_of_handle (h : s.handle settings now r = (reply, s')) (hm : r.method ≠ .head)
    (requestId : String) :
    s.respond settings now requestId r = (reply.response? requestId, s') := by
  simp only [respond, h, if_neg hm]

/-- A request for the record of a node is answered with the one that is found. -/
theorem respond_getNode {id : String} {n : Node}
    (hread : Command.ofRequest r = .ok (.getNode id)) (hm : r.method ≠ .head)
    (hn : nodes.require s.backing.store id = .ok n) (now : Instant) (requestId : String) :
    s.respond settings now requestId r =
      (some ⟨200, some "application/json", none, (Node.codec.write n).toBytes⟩, s) := by
  have hd : (Command.getNode id).decide settings.policy now (settings.ids s.issued)
      s.backing.store =
        (do return Decision.tellOne nodes (← nodes.require s.backing.store id)) := rfl
  rw [hn] at hd
  exact respond_of_handle ((handle_of_read hread).trans (obey_of_tell hd)) hm requestId

/-- A request that only looks leaves the service alone. -/
theorem Deals.eq_of_looks (h : Deals settings now r s reply s') (hr : r.method.looks = true) :
    s' = s := by
  have excluded : ∀ {c change body named}, Command.ofRequest r = .ok c →
      c.decide settings.policy now (settings.ids s.issued) s.backing.store =
        .ok (.make change body named) → False := by
    intro c change body named read decided
    have hlooks := Command.decide_tells settings.policy now (settings.ids s.issued)
      s.backing.store c _ decided
    rw [Command.looks_ofRequest read, hr] at hlooks
    cases hlooks
  cases h with
  | refused | failed | told => rfl
  | made read decided => exact (excluded read decided).elim
  | unmade read decided => exact (excluded read decided).elim

/-- What is done of a request that does not only look is a change. -/
theorem Deals.exists_change (h : Deals settings now r s reply s') (hr : r.method.looks = false)
    (hd : reply.isDone = true) : ∃ c, s.backing.commit c = (none, s'.backing) := by
  cases h with
  | refused | failed | unmade => cases hd
  | told read decided =>
    have hlooks := Command.decide_tells settings.policy now (settings.ids s.issued)
      s.backing.store _ _ decided
    rw [Command.looks_ofRequest read, hr] at hlooks
    cases hlooks
  | made _ _ commit => exact ⟨_, commit⟩

/-- What is not done leaves the store alone or is a change that the store refused. -/
theorem Deals.of_not_isDone (h : Deals settings now r s reply s') (hd : reply.isDone = false) :
    s' = s ∨ ∃ c e, s.backing.commit c = (some e, s'.backing) := by
  cases h with
  | refused | failed => exact .inl rfl
  | told | made => cases hd
  | unmade _ _ commit => exact .inr ⟨_, _, commit⟩

/-- The response shows the reply that the service makes. -/
theorem deals_respond (settings : Settings) (now : Instant) (requestId : String) (r : Request)
    (s : Service) : ∃ reply : Reply,
      Deals settings now r s reply (s.respond settings now requestId r).2 ∧
      reply.ShownBy (s.respond settings now requestId r).1 := by
  have hdeals := deals_handle settings now r s
  unfold respond
  generalize s.handle settings now r = x at hdeals ⊢
  obtain ⟨reply, s'⟩ := x
  refine ⟨reply, hdeals, ?_⟩
  have hshown := reply.shownBy_response? requestId
  dsimp only
  split
  · exact hshown.withoutBody
  · exact hshown

end Service

end Api

end ControlPlane
