import ControlPlane.Api.Identifier
import ControlPlane.Proofs.Api.Decision
import ControlPlane.Proofs.Store.Commit
import ControlPlane.Proofs.Store.Found
import ControlPlane.Proofs.Store.KeyMap
import ControlPlane.Proofs.Store.Torn

/-!
# Requests are done as a whole or not at all

A request to a store that is kept on a disk, in whatever state, either makes one change, which adds
one line to the log, or none. If its response tells an error, the map is what it was, and so is the
log unless the request itself poisoned the store (`Service.respond_atomic`). The operations of the
registries leave the map alone as well when they come to an error (`Operation.data_of_error`).
-/

namespace ControlPlane

/-! ## Operations of the registries -/

/-- The operations that change the records of a registry. -/
inductive Operation where
  | registerNode (id : String) (n : Node)
  | updateNode (id : String) (n : Node)
  | setNodeStatus (policy : StatusPolicy) (id : String) (status : NodeStatus)
  | markUnreachable (id : String) (status : NodeStatus)
  | recordHeartbeat (id : String) (time : Instant)
  | removeNode (id : String)
  | putModel (id : String) (m : Model)
  | removeModel (id : String)
  | putReplica (id : String) (r : Replica)
  | removeReplica (id : String)

namespace Operation

/-- The change that an operation comes to. An answer to a heartbeat also tells a status. -/
def decide (s : Store) (now : Instant) :
    Operation → Except RegistryError (Change × Option NodeStatus)
  | registerNode id n => return (← Node.register now id n, none)
  | updateNode id n => return (← Node.update s now id n, none)
  | setNodeStatus policy id status => return (← Node.setStatus s now policy id status, none)
  | markUnreachable id status => return (← Node.markUnreachable s now id status, none)
  | recordHeartbeat id time => do
    let (c, status) ← Node.recordHeartbeat s now id time
    return (c, some status)
  | removeNode id => return (← nodes.remove id, none)
  | putModel id m => return (← models.put id m, none)
  | removeModel id => return (← models.remove id, none)
  | putReplica id r => return (← replicas.put id r, none)
  | removeReplica id => return (← replicas.remove id, none)

/-- Carries an operation out. -/
def run (op : Operation) (now : Instant) (b : Backing) :
    Except RegistryError (Option NodeStatus) × Backing :=
  b.perform (op.decide b.store now)

/-- An operation that comes to an error leaves the map alone. -/
theorem data_of_error {op : Operation} {now : Instant} {b b' : Backing} {e : RegistryError}
    (h : op.run now b = (.error e, b')) : b'.store.data = b.store.data := by
  unfold run Backing.perform at h
  split at h
  · cases h
    rfl
  · rename_i c result _
    rcases hc : b.store.commit b.disk c with ⟨_ | e', s', d'⟩
    · rw [Backing.commit, hc] at h
      cases h
    · rw [Backing.commit, hc] at h
      cases h
      exact Store.data_of_commit_error hc

end Operation

/-! ## Requests -/

namespace Api.Service

open Durable

variable {folder : String} {file : Nat} {log : Bytes} {s₀ s : Durable} {d₀ d₁ d : Disk}

/-- A change of a store that is kept on a disk is one of the store and the disk. -/
theorem commit_durable {c : Change} {e : Option StoreError} {b : Backing}
    (h : (⟨.durable s, d⟩ : Backing).commit c = (e, b)) :
    ∃ t d', b = ⟨.durable t, d'⟩ ∧ s.commit d c = (e, t, d') := by
  rcases hc : s.commit d c with ⟨e', t, d'⟩
  rw [Backing.commit, Store.commit, hc] at h
  obtain ⟨rfl, rfl⟩ := Prod.mk.inj h
  exact ⟨t, d', rfl, rfl⟩

/-- What a request leaves of a store and its log. -/
structure Leaves (r : Http.Request) (isDone : Bool) (s : Durable) (log : Bytes) (t : Durable)
    (log' : Bytes) : Prop where
  error : isDone = false → t.data = s.data ∧ (log' = log ∨ s.poisoned = false ∧ t.poisoned = true)
  change : isDone = true → r.method.looks = false →
    ∃ c : Change, t.data = c.apply s.data ∧ log' = log ++ c.line

/-- A request to a store that serves its folder. -/
theorem Deals.leaves {settings : Settings} {now : Instant} {r : Http.Request} {issued : Nat}
    {reply : Reply} {s' : Service} (hs : Serves folder file log s d)
    (h : Deals settings now r ⟨⟨.durable s, d⟩, issued⟩ reply s') :
    ∃ t d' log', s'.backing = ⟨.durable t, d'⟩ ∧ Serves folder file log' t d' ∧
      Leaves r reply.isDone s log t log' := by
  cases hd : reply.isDone with
  | true =>
    cases hr : r.method.looks with
    | true =>
      obtain rfl := h.eq_of_looks hr
      exact ⟨s, d, log, rfl, hs, nofun, fun _ hr' => by rw [hr] at hr'; cases hr'⟩
    | false =>
      obtain ⟨c, hc⟩ := h.exists_change hr hd
      obtain ⟨t, d', hb, hcommit⟩ := commit_durable hc
      cases commit_spec hs hcommit with
      | made data _ _ _ serves =>
        exact ⟨t, d', _, hb, serves, nofun, fun _ _ => ⟨c, data, rfl⟩⟩
  | false =>
    rcases h.of_not_isDone hd with rfl | ⟨c, e, hc⟩
    · exact ⟨s, d, log, rfl, hs, fun _ => ⟨rfl, .inl rfl⟩, nofun⟩
    · obtain ⟨t, d', hb, hcommit⟩ := commit_durable hc
      cases commit_spec hs hcommit with
      | undone serves => exact ⟨s, d', log, hb, serves, fun _ => ⟨rfl, .inl rfl⟩, nofun⟩
      | torn part healthy data poisoned serves =>
        exact ⟨t, d', _, hb, serves, fun _ => ⟨data, .inr ⟨healthy, poisoned⟩⟩, nofun⟩

/-- Whatever the state of a store and whatever the disk refuses: a response that tells an error
leaves the map as it was, and the log too unless the request poisoned the store; one that tells
success of a request that changes something goes with one change and one line for it; and a request
that only looks touches nothing. An operation that comes to an error leaves the map alone. -/
theorem respond_atomic (hv : d₀.FilesValid) (ho : openFolder d₀ folder = (.ok s₀, d₁))
    (hl : Later s₀ d₁ s d) (settings : Settings) (issued : Nat) (now : Instant)
    (requestId : String) (r : Http.Request) :
    (∃ response t d' issued' log log',
      Service.respond settings now requestId r ⟨⟨.durable s, d⟩, issued⟩ =
        (response, ⟨⟨.durable t, d'⟩, issued'⟩) ∧
      d.load (inFolder folder logName) = .ok log ∧
      d'.load (inFolder folder logName) = .ok log' ∧
      (∀ a, response = some a → a.status = 200 ∨ 400 ≤ a.status) ∧
      ((∀ a, response = some a → 400 ≤ a.status) →
        t.data = s.data ∧ (log' = log ∨ s.poisoned = false ∧ t.poisoned = true)) ∧
      (∀ a, response = some a → 200 ≤ a.status → a.status < 300 →
        r.method ∈ [.post, .put, .patch, .delete] →
        ∃ c : Change, t.data = c.apply s.data ∧
          (∀ key, key ≠ c.key → t.data.get? key = s.data.get? key) ∧ log' = log ++ c.line) ∧
      (r.method = .get ∨ r.method = .head → t = s ∧ d' = d ∧ log' = log)) ∧
    ∀ (op : Operation) (now : Instant) (b b' : Backing) e, op.run now b = (.error e, b') →
      b'.store.data = b.store.data := by
  refine ⟨?_, fun op now b b' e h => op.data_of_error h⟩
  obtain ⟨file, log₁, hs₁, -⟩ := exists_serves hv ho
  obtain ⟨log, hs⟩ := hl.serves hs₁
  obtain ⟨reply, hdeals, hshown⟩ :=
    deals_respond settings now requestId r ⟨⟨.durable s, d⟩, issued⟩
  generalize Service.respond settings now requestId r ⟨⟨.durable s, d⟩, issued⟩ = x
    at hdeals hshown ⊢
  obtain ⟨response, b, issued'⟩ := x
  obtain ⟨t, d', log', hb, hs', hleaves⟩ := hdeals.leaves hs
  obtain rfl : b = ⟨.durable t, d'⟩ := hb
  refine ⟨response, t, d', issued', log, log', rfl, hs.load, hs'.load, ?_, ?_, ?_, ?_⟩
  · intro a ha
    subst ha
    exact hshown.status_eq
  · intro he
    apply hleaves.error
    rw [Bool.eq_false_iff]
    intro hd
    obtain ⟨a, ha, hstatus⟩ := hshown.isDone_iff.1 hd
    have := he a ha
    omega
  · intro a ha hlow hhigh hm
    have hstatus : a.status = 200 := by
      subst ha
      rcases hshown.status_eq with h | h
      · exact h
      · omega
    have hlooks : r.method.looks = false := by
      simp only [List.mem_cons, List.not_mem_nil, or_false] at hm
      rcases hm with hm | hm | hm | hm <;> rw [hm] <;> rfl
    obtain ⟨c, hdata, hlog⟩ := hleaves.change (hshown.isDone_iff.2 ⟨a, ha, hstatus⟩) hlooks
    refine ⟨c, hdata, ?_, hlog⟩
    intro key hk
    rw [hdata]
    exact Change.get?_apply_of_ne hk s.data
  · intro hm
    have hlooks : r.method.looks = true := by rcases hm with hm | hm <;> rw [hm] <;> rfl
    have heq := hdeals.eq_of_looks hlooks
    cases heq
    exact ⟨rfl, rfl, Except.ok.inj (hs'.load.symm.trans hs.load)⟩

/-- What takes a model away is understood. -/
theorem ofRequest_removeModel :
    Command.ofRequest ⟨.delete, "/api/models/m", none, []⟩ = .ok (.removeModel "m") := by
  have hpath : Http.Request.path ⟨.delete, "/api/models/m", none, []⟩ = "/api/models/m" := by
    decide +kernel
  have hroute : Route.ofPath? "/api/models/m" = some (.model "m") := by decide +kernel
  have hid : Http.unescapeText? "m" = some "m" := by decide +kernel
  rw [Command.ofRequest_of_path hpath hroute]
  dsimp only [Command.onRoute]
  rw [readId, hid]
  rfl

/-- Taking a model away from a new store leaves one line in its log. -/
theorem respond_atomic_removeModel : ∃ s d response b issued,
    openFolder {} "d" = (.ok s, d) ∧
    Service.respond ⟨.refreshHeartbeat, numberedId⟩ ⟨0, 0⟩ "r"
      ⟨.delete, "/api/models/m", none, []⟩ ⟨⟨.durable s, d⟩, 0⟩ = (response, ⟨b, issued⟩) ∧
    ∃ c : Change, b.disk.load (inFolder "d" logName) = .ok c.line := by
  obtain ⟨hvacant, s, d, ho, hp, hf, hd⟩ := openFolder_new
  obtain ⟨⟨response, t, d', issued, log, log', hr, hlog, hlog', -, -, hchange, -⟩, -⟩ :=
    respond_atomic Disk.filesValid_new ho .now ⟨.refreshHeartbeat, numberedId⟩ 0 ⟨0, 0⟩ "r"
      ⟨.delete, "/api/models/m", none, []⟩
  refine ⟨s, d, response, _, issued, ho, hr, ?_⟩
  obtain ⟨s', d'', hc, -⟩ := commit_of_faultless (c := .delete "model:m") hd hp hf (by decide)
  have hcommit : (⟨.durable s, d⟩ : Backing).commit (.delete "model:m") =
      (none, ⟨.durable s', d''⟩) := by
    rw [Backing.commit, Store.commit, hc]
  have hhandle : Service.handle ⟨.refreshHeartbeat, numberedId⟩ ⟨0, 0⟩
      ⟨.delete, "/api/models/m", none, []⟩ ⟨⟨.durable s, d⟩, 0⟩ =
        (.done Decision.success, ⟨⟨.durable s', d''⟩, 0⟩) :=
    (handle_of_read ofRequest_removeModel).trans (obey_of_commit rfl hcommit rfl)
  rw [respond_of_handle hhandle (by decide)] at hr
  obtain ⟨c, -, -, hline⟩ := hchange _ (Prod.mk.inj hr).1.symm (by decide) (by decide) (by decide)
  obtain ⟨file, hs, -⟩ := serves_of_vacant hvacant ho
  obtain rfl : [] = log := Except.ok.inj (hs.load.symm.trans hlog)
  exact ⟨c, by rw [hlog', hline]; rfl⟩

end Api.Service

end ControlPlane
