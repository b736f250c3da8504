import ControlPlane.Proofs.Api.Command
import ControlPlane.Proofs.Api.Decision
import ControlPlane.Proofs.Catalogue.Basic
import ControlPlane.Proofs.Registry.NodeChange
import Mathlib.Data.List.Sort
import Mathlib.Data.String.Basic

/-!
# The service refines the catalogue

On a store that works a service gives the responses of a catalogue to all requests about models and
replicas, whatever is asked about nodes in between (`Catalogue.responses_eq`). The store shows the
two maps of the catalogue (`Catalogue.Simulates`), and one command keeps this up and is answered
alike (`Simulates.obey`).
-/

namespace ControlPlane

open Api (Command Reply Service Settings)

namespace Catalogue

/-! ## Finite maps -/

section Maps

variable {α : Type} {records : Std.TreeMap String α} {id : String} {a : α}

theorem getElem?_insert_eq (records : Std.TreeMap String α) (id : String) (a : α) :
    (fun k => (records.insert id a)[k]?) = Function.update (fun k => records[k]?) id (some a) := by
  funext k
  rw [Std.TreeMap.getElem?_insert, Function.update_apply]
  simp only [Std.LawfulEqCmp.compare_eq_iff_eq, @eq_comm _ id]

theorem getElem?_erase_eq (records : Std.TreeMap String α) (id : String) :
    (fun k => (records.erase id)[k]?) = Function.update (fun k => records[k]?) id none := by
  funext k
  rw [Std.TreeMap.getElem?_erase, Function.update_apply]
  simp only [Std.LawfulEqCmp.compare_eq_iff_eq, @eq_comm _ id]

/-- Records are listed in the order of the bytes of their ids. -/
theorem sorted_toList (records : Std.TreeMap String α) :
    records.toList.Pairwise fun d e => utf8 d.1 < utf8 e.1 :=
  Std.TreeMap.ordered_keys_toList.imp fun h => utf8_lt_iff.2 (Std.LawfulLTCmp.eq_lt_iff_lt.1 h)

/-- The list of a registry is the one of the records that its store shows. -/
theorem list_eq_values {r : Registry α} {s : Store} (h : r.Shows s.data fun id => records[id]?)
    (hs : s.Plain) : r.list s = .ok (values records) := by
  obtain ⟨as, has, hsorted, hmem⟩ := h.list hs
  have hfound : ∀ e ∈ records.toList, records[e.1]? = some e.2 := fun e he =>
    Std.TreeMap.mem_toList_iff_getElem?_eq_some.1 he
  have hvalues : (values records).Pairwise fun a b => r.idOf a < r.idOf b := by
    rw [values, List.pairwise_map]
    refine (sorted_toList records).imp_of_mem ?_
    intro d e hd he hlt
    rw [(h.own d.1 d.2 (hfound d hd)).2, (h.own e.1 e.2 (hfound e he)).2]
    exact utf8_lt_iff.1 hlt
  have heq : as = values records := by
    have : Std.Irrefl fun a b : α => r.idOf a < r.idOf b := ⟨fun a => String.lt_irrefl _⟩
    refine hsorted.eq_of_mem_iff hvalues ?_
    intro a
    rw [hmem, values, List.mem_map]
    constructor
    · intro ha
      exact ⟨(r.idOf a, a), Std.TreeMap.mem_toList_iff_getElem?_eq_some.2 ha, rfl⟩
    · rintro ⟨e, he, rfl⟩
      have hown := (h.own e.1 e.2 (hfound e he)).2
      rw [hown]
      exact hfound e he
  rw [has, heq]

end Maps

/-! ## Stores that show two kinds of records -/

/-- Whether a store works and shows the records of two kinds. -/
structure ShowsBoth {α β : Type} (r : Registry α) (r' : Registry β) (f : String → Option α)
    (g : String → Option β) (b : Backing) : Prop where
  works : b.Works
  apart : r.Apart r'
  first : r.Shows b.store.data f
  second : r'.Shows b.store.data g

namespace ShowsBoth

variable {α β : Type} {r : Registry α} {r' : Registry β} {f : String → Option α}
  {g : String → Option β} {b : Backing} {id : String} {a : α}

theorem swap (h : ShowsBoth r r' f g b) : ShowsBoth r' r g f b :=
  ⟨h.works, h.apart.symm, h.second, h.first⟩

/-- Writing a record that is kept as it is. -/
theorem write (h : ShowsBoth r r' f g b) (l : r.Laws) (hf : l.Fits a)
    (hs : l.codec.settle a = a) (hid : id ≠ "") (ha : r.idOf a = id) :
    ∃ b', b.commit (r.write id a) = (none, b') ∧
      ShowsBoth r r' (Function.update f id (some a)) g b' := by
  obtain ⟨b', hc, hworks, hdata⟩ := h.works.commit (c := r.write id a) (r.key_ne_empty id)
  refine ⟨b', hc, hworks, h.apart, ?_, ?_⟩
  · have hwrite := h.first.write l hf hid ha
    rw [hs] at hwrite
    rw [hdata]
    exact hwrite
  · rw [hdata]
    exact h.second.elsewhere h.apart.symm ⟨id, rfl⟩

theorem delete (h : ShowsBoth r r' f g b) (id : String) :
    ∃ b', b.commit (.delete (r.key id)) = (none, b') ∧
      ShowsBoth r r' (Function.update f id none) g b' := by
  obtain ⟨b', hc, hworks, hdata⟩ := h.works.commit (c := .delete (r.key id)) (r.key_ne_empty id)
  refine ⟨b', hc, hworks, h.apart, ?_, ?_⟩
  · rw [hdata]
    exact h.first.delete id
  · rw [hdata]
    exact h.second.elsewhere h.apart.symm ⟨id, rfl⟩

/-- A change of a record of a third kind is not noticed. -/
theorem elsewhere {γ : Type} {q : Registry γ} (h : ShowsBoth r r' f g b) (hr : r.Apart q)
    (hr' : r'.Apart q) {c : Change} (hc : ∃ id, c.key = q.key id) :
    ∃ b', b.commit c = (none, b') ∧ ShowsBoth r r' f g b' := by
  obtain ⟨id, hk⟩ := hc
  obtain ⟨b', hc, hworks, hdata⟩ := h.works.commit (hk ▸ q.key_ne_empty id)
  refine ⟨b', hc, hworks, h.apart, ?_, ?_⟩
  · rw [hdata]
    exact h.first.elsewhere hr ⟨id, hk⟩
  · rw [hdata]
    exact h.second.elsewhere hr' ⟨id, hk⟩

end ShowsBoth

/-! ## Commands about one kind of records -/

/-- Whether a reply is written as the response with an answer. -/
def Tells (requestId : String) (reply : Reply) (a : Answer) : Prop :=
  reply.response? requestId = some a.response

section OneKind

open Api.Decision

variable {α β : Type} {r : Registry α} {r' : Registry β} {records : Std.TreeMap String α}
  {g : String → Option β} {s : Service} {id : String} {a : α}
  (settings : Settings) (now : Instant) (command : Command)

theorem obey_fetch (h : ShowsBoth r r' (fun id => records[id]?) g s.backing) (hid : id ≠ "")
    (hd : command.decide settings.policy now (settings.ids s.issued) s.backing.store =
      (do return tellOne r (← r.require s.backing.store id))) (requestId : String) :
    ∃ reply, s.obey settings now command = (reply, s) ∧
      Tells requestId reply (fetch records r.kind r.codec id requestId) := by
  unfold fetch
  cases ha : records[id]? with
  | some a =>
    rw [h.first.require_of_some h.works.plain ha] at hd
    exact ⟨_, Service.obey_of_tell hd, rfl⟩
  | none =>
    rw [h.first.require_of_none h.works.plain hid ha] at hd
    exact ⟨_, Service.obey_of_error hd, rfl⟩

theorem obey_all (h : ShowsBoth r r' (fun id => records[id]?) g s.backing)
    (hd : command.decide settings.policy now (settings.ids s.issued) s.backing.store =
      (do return tellAll r (← r.list s.backing.store))) (requestId : String) :
    ∃ reply, s.obey settings now command = (reply, s) ∧
      Tells requestId reply (.all r.codec (values records)) := by
  rw [list_eq_values h.first h.works.plain] at hd
  exact ⟨_, Service.obey_of_tell hd, rfl⟩

theorem obey_store (h : ShowsBoth r r' (fun id => records[id]?) g s.backing) (l : r.Laws)
    (hf : l.Fits a) (hs : l.codec.settle (r.withId id a) = r.withId id a) (hid : id ≠ "")
    (hd : command.decide settings.policy now (settings.ids s.issued) s.backing.store =
      (do return done (← r.put id a))) (requestId : String) :
    ∃ reply b, s.obey settings now command = (reply, ⟨b, s.issued⟩) ∧
      Tells requestId reply (store records r.kind id (r.idOf a) (r.withId id a) requestId).1 ∧
      ShowsBoth r r'
        (fun k => (store records r.kind id (r.idOf a) (r.withId id a) requestId).2[k]?) g b := by
  unfold store
  by_cases hm : r.idOf a = "" ∨ r.idOf a = id
  · rw [if_pos hm]
    rw [Registry.put_of_matching hid hm] at hd
    obtain ⟨b, hc, hb⟩ := h.write l (l.fits_withId hf) hs hid (l.idOf_withId id a)
    rw [← getElem?_insert_eq] at hb
    exact ⟨_, b, Service.obey_of_commit hd hc rfl, rfl, hb⟩
  · rw [if_neg hm]
    rw [Registry.put_of_mismatch hid hm] at hd
    exact ⟨_, s.backing, Service.obey_of_error hd, rfl, h⟩

theorem obey_add (h : ShowsBoth r r' (fun id => records[id]?) g s.backing) (l : r.Laws)
    (hf : l.Fits a) (hs : l.codec.settle (r.withId id a) = r.withId id a) (hid : id ≠ "")
    (ha : r.idOf a = "" ∨ r.idOf a = id) {name : String} {named : Bool}
    (hd : command.decide settings.policy now (settings.ids s.issued) s.backing.store =
      (do return .make (← r.put id a) (newId name id) named)) (requestId : String) :
    ∃ reply b, s.obey settings now command =
        (reply, ⟨b, if named then s.issued + 1 else s.issued⟩) ∧
      Tells requestId reply (.added name id) ∧
      ShowsBoth r r' (fun k => (records.insert id (r.withId id a))[k]?) g b := by
  rw [Registry.put_of_matching hid ha] at hd
  obtain ⟨b, hc, hb⟩ := h.write l (l.fits_withId hf) hs hid (l.idOf_withId id a)
  rw [← getElem?_insert_eq] at hb
  exact ⟨_, b, Service.obey_of_commit hd hc rfl, rfl, hb⟩

theorem obey_erase (h : ShowsBoth r r' (fun id => records[id]?) g s.backing) (hid : id ≠ "")
    (hd : command.decide settings.policy now (settings.ids s.issued) s.backing.store =
      (do return done (← r.remove id))) (requestId : String) :
    ∃ reply b, s.obey settings now command = (reply, ⟨b, s.issued⟩) ∧
      Tells requestId reply .success ∧
      ShowsBoth r r' (fun k => (records.erase id)[k]?) g b := by
  rw [Registry.remove_of_ne hid] at hd
  obtain ⟨b, hc, hb⟩ := h.delete id
  rw [← getElem?_erase_eq] at hb
  exact ⟨_, b, Service.obey_of_commit hd hc rfl, rfl, hb⟩

theorem obey_ofModel {records : Std.TreeMap String Replica}
    (h : ShowsBoth replicas r' (fun id => records[id]?) g s.backing) (modelId requestId : String) :
    ∃ reply, s.obey settings now (.listReplicas (some modelId)) = (reply, s) ∧
      Tells requestId reply (ofModel records modelId requestId) := by
  have hd : (Command.listReplicas (some modelId)).decide settings.policy now
      (settings.ids s.issued) s.backing.store =
        (do return tellAll replicas (← replicasOfModel s.backing.store modelId)) := rfl
  unfold replicasOfModel at hd
  unfold ofModel
  by_cases hm : modelId = ""
  · subst hm
    rw [if_pos rfl]
    exact ⟨_, Service.obey_of_error hd, rfl⟩
  · rw [if_neg hm]
    rw [Registry.requireId_of_ne hm, list_eq_values h.first h.works.plain] at hd
    exact ⟨_, Service.obey_of_tell hd, rfl⟩

end OneKind

/-! ## The simulation -/

/-- Whether a service shows a catalogue. -/
structure Simulates (c : Catalogue) (s : Service) : Prop where
  shown : ShowsBoth models replicas (fun id => c.modelById[id]?) (fun id => c.replicaById[id]?)
    s.backing
  issued : c.issued = s.issued

/-- Whether the numbers in what a command wants to be stored survive. Only the description of a
model's input has any that might not. -/
def Survives : Command → Prop
  | .addModel m | .putModel _ m => m.inputFormat.Survives
  | _ => True

/-- A service goes on showing a catalogue when both obey a command, and answers as it does. -/
theorem Simulates.obey {c : Catalogue} {s : Service} {settings : Settings} (h : c.Simulates s)
    (hids : ∀ n, settings.ids n ≠ "") {command : Command} (hf : command.Fits)
    (hp : command.Proper) (hs : Survives command) (now : Instant) (requestId : String) :
    ∃ reply s', s.obey settings now command = (reply, s') ∧
      (∀ a, (c.obey settings.ids requestId command).1 = some a → Tells requestId reply a) ∧
      (c.obey settings.ids requestId command).2.Simulates s' := by
  obtain ⟨hshown, hissued⟩ := h
  have onNodes : command.aboutNodes = true → (∀ form, command ≠ .registerNode form) →
      ∃ reply b, s.obey settings now command = (reply, ⟨b, s.issued⟩) ∧
        ShowsBoth models replicas (fun id => c.modelById[id]?) (fun id => c.replicaById[id]?)
          b := by
    intro hc hr
    have hon := Command.decide_onNodes hc hr settings.policy now (settings.ids s.issued)
      s.backing.store
    cases hd : command.decide settings.policy now (settings.ids s.issued) s.backing.store with
    | error e => exact ⟨_, s.backing, Service.obey_of_error hd, hshown⟩
    | ok d =>
      cases d with
      | tell body => exact ⟨_, s.backing, Service.obey_of_tell hd, hshown⟩
      | make change body named =>
        obtain ⟨rfl, hk⟩ := hon _ hd
        obtain ⟨b, hcommit, hb⟩ := hshown.elsewhere Registry.nodes_apart_models.symm
          Registry.nodes_apart_replicas.symm hk
        exact ⟨_, b, Service.obey_of_commit hd hcommit rfl, hb⟩
  cases command with
  | health => exact ⟨_, s, rfl, fun a ha => Option.some.inj ha ▸ rfl, hshown, hissued⟩
  | listNodes | getNode id | patchNode id patch | setNodeStatus id status | removeNode id =>
    obtain ⟨reply, b, hobey, hb⟩ := onNodes rfl nofun
    exact ⟨reply, _, hobey, nofun, hb, hissued⟩
  | registerNode form =>
    have hd := Command.decide_registerNode (hids s.issued) settings.policy now s.backing.store form
    have hk : (nodes.write (settings.ids s.issued)
        ((form.node (settings.ids s.issued)).registered now)).key =
          nodes.key (settings.ids s.issued) := rfl
    obtain ⟨b, hcommit, hb⟩ := hshown.elsewhere Registry.nodes_apart_models.symm
      Registry.nodes_apart_replicas.symm ⟨_, hk⟩
    exact ⟨_, _, Service.obey_of_commit hd hcommit rfl, nofun, hb, congrArg (· + 1) hissued⟩
  | listModels =>
    obtain ⟨reply, hobey, htells⟩ := obey_all settings now .listModels hshown rfl requestId
    exact ⟨reply, s, hobey, fun a ha => Option.some.inj ha ▸ htells, hshown, hissued⟩
  | getModel id =>
    obtain ⟨reply, hobey, htells⟩ := obey_fetch settings now (.getModel id) hshown hp rfl requestId
    exact ⟨reply, s, hobey, fun a ha => Option.some.inj ha ▸ htells, hshown, hissued⟩
  | addModel m =>
    have hm : models.laws.Fits { m with id := settings.ids s.issued } := models.laws.fits_withId hf
    obtain ⟨reply, b, hobey, htells, hb⟩ := obey_add settings now (.addModel m) hshown
      models.laws hm (Model.settle_eq hm hs) (hids s.issued) (.inr rfl) rfl requestId
    rw [← hissued] at hobey htells hb
    exact ⟨reply, _, hobey, fun a ha => Option.some.inj ha ▸ htells, hb, rfl⟩
  | putModel id m =>
    have hm : models.laws.Fits { m with id := id } := models.laws.fits_withId hf
    obtain ⟨reply, b, hobey, htells, hb⟩ := obey_store settings now (.putModel id m) hshown
      models.laws hf (Model.settle_eq hm hs) hp rfl requestId
    exact ⟨reply, _, hobey, fun a ha => Option.some.inj ha ▸ htells, hb, hissued⟩
  | removeModel id =>
    obtain ⟨reply, b, hobey, htells, hb⟩ :=
      obey_erase settings now (.removeModel id) hshown hp rfl requestId
    exact ⟨reply, _, hobey, fun a ha => Option.some.inj ha ▸ htells, hb, hissued⟩
  | listReplicas modelId =>
    cases modelId with
    | none =>
      obtain ⟨reply, hobey, htells⟩ :=
        obey_all settings now (.listReplicas none) hshown.swap rfl requestId
      exact ⟨reply, s, hobey, fun a ha => Option.some.inj ha ▸ htells, hshown, hissued⟩
    | some modelId =>
      obtain ⟨reply, hobey, htells⟩ := obey_ofModel settings now hshown.swap modelId requestId
      exact ⟨reply, s, hobey, fun a ha => Option.some.inj ha ▸ htells, hshown, hissued⟩
  | getReplica id =>
    obtain ⟨reply, hobey, htells⟩ :=
      obey_fetch settings now (.getReplica id) hshown.swap hp rfl requestId
    exact ⟨reply, s, hobey, fun a ha => Option.some.inj ha ▸ htells, hshown, hissued⟩
  | addReplica r =>
    have hid : (if r.id.isEmpty then settings.ids s.issued else r.id) ≠ "" ∧
        (r.id = "" ∨ r.id = if r.id.isEmpty then settings.ids s.issued else r.id) := by
      by_cases hr : r.id = ""
      · rw [if_pos (String.isEmpty_iff.2 hr)]
        exact ⟨hids s.issued, .inl hr⟩
      · rw [if_neg fun he => hr (String.isEmpty_iff.1 he)]
        exact ⟨hr, .inr rfl⟩
    obtain ⟨reply, b, hobey, htells, hb⟩ := obey_add settings now (.addReplica r) hshown.swap
      replicas.genuine hp (Replica.settle_eq _) hid.1 hid.2 rfl requestId
    rw [← hissued] at hobey htells hb
    exact ⟨reply, _, hobey, fun a ha => Option.some.inj ha ▸ htells, hb.swap, rfl⟩
  | putReplica id r =>
    obtain ⟨hid, hr⟩ := hp
    obtain ⟨reply, b, hobey, htells, hb⟩ := obey_store settings now (.putReplica id r) hshown.swap
      replicas.genuine hr (Replica.settle_eq _) hid rfl requestId
    exact ⟨reply, _, hobey, fun a ha => Option.some.inj ha ▸ htells, hb.swap, hissued⟩
  | removeReplica id =>
    obtain ⟨reply, b, hobey, htells, hb⟩ :=
      obey_erase settings now (.removeReplica id) hshown.swap hp rfl requestId
    exact ⟨reply, _, hobey, fun a ha => Option.some.inj ha ▸ htells, hb.swap, hissued⟩

/-! ## Calls -/

/-- There is an answer to a command unless it is about nodes. -/
theorem isSome_obey (c : Catalogue) (ids : Nat → String) (requestId : String)
    (command : Command) :
    (c.obey ids requestId command).1.isSome = !command.aboutNodes := by
  cases command with
  | listReplicas modelId => cases modelId <;> rfl
  | _ => rfl

/-- A service goes on showing a catalogue when both answer a call, and responds as it does. -/
theorem Simulates.respond {c : Catalogue} {s : Service} {settings : Settings}
    (h : c.Simulates s) (hids : ∀ n, settings.ids n ≠ "") (call : Call)
    (hs : ∀ command, Command.ofRequest call.request = .ok command → Survives command) :
    ∃ response s', s.respond settings call.now call.requestId call.request = (response, s') ∧
      (c.respond settings.ids call).1.toList.map some =
        (if call.aboutNodes then [] else [response]) ∧
      (c.respond settings.ids call).2.Simulates s' := by
  obtain ⟨now, requestId, request⟩ := call
  unfold Service.respond Catalogue.respond Call.aboutNodes Service.handle
  dsimp only at hs ⊢
  cases hr : Command.ofRequest request with
  | error why =>
    refine ⟨_, s, rfl, ?_, h⟩
    by_cases hm : request.method = .head <;> simp [hm, Reply.response?]
  | ok command =>
    obtain ⟨reply, s', hobey, htells, hs'⟩ := h.obey hids (Command.fits_ofRequest hr)
      (Command.proper_ofRequest hr) (hs command hr) now requestId
    have hsome := isSome_obey c settings.ids requestId command
    dsimp only
    rw [hobey]
    refine ⟨_, s', rfl, ?_, hs'⟩
    cases ha : (c.obey settings.ids requestId command).1 with
    | none =>
      rw [ha] at hsome
      rw [if_pos (show command.aboutNodes = true by simpa using hsome)]
      by_cases hm : request.method = .head <;> simp [hm]
    | some a =>
      rw [ha] at hsome
      rw [htells a ha, if_neg (show ¬command.aboutNodes = true by simpa using hsome)]
      by_cases hm : request.method = .head <;> simp [hm]

/-- A service responds to all calls as the catalogue that it shows. -/
theorem Simulates.responses {settings : Settings} (hids : ∀ n, settings.ids n ≠ "")
    {calls : List Call} (hs : ∀ call ∈ calls, ∀ command,
      Command.ofRequest call.request = .ok command → Survives command) {c : Catalogue}
    {s : Service} (h : c.Simulates s) :
    s.responses settings calls = (c.responses settings.ids calls).map some := by
  induction calls generalizing c s with
  | nil => rfl
  | cons call calls ih =>
    obtain ⟨response, s', hrespond, hanswer, hs'⟩ :=
      h.respond hids call (hs call List.mem_cons_self)
    have hrest := ih (fun call hc => hs call (List.mem_cons_of_mem _ hc)) hs'
    unfold Service.responses Catalogue.responses
    dsimp only
    rw [hrespond, List.map_append, hanswer]
    dsimp only
    rw [hrest]
    by_cases hc : call.aboutNodes = true
    · rw [if_pos hc, if_pos hc]
      rfl
    · rw [if_neg hc, if_neg hc]
      rfl

/-- A service that starts without records, on a store that works, responds to every sequence of
calls that are not about nodes as two plain maps do, whatever is asked about nodes in between. -/
theorem responses_eq {settings : Settings} (hids : ∀ n, settings.ids n ≠ "") {b : Backing}
    (hb : b.Works) (he : b.store.data = .empty) {calls : List Call}
    (hs : ∀ call ∈ calls, ∀ command,
      Command.ofRequest call.request = .ok command → Survives command) :
    Service.responses settings calls ⟨b, 0⟩ =
      (Catalogue.responses settings.ids calls .empty).map some := by
  have hempty : Catalogue.empty.Simulates ⟨b, 0⟩ := by
    refine ⟨⟨hb, Registry.models_apart_replicas, ?_, ?_⟩, rfl⟩
    · rw [he]
      simpa [empty] using Registry.Shows.empty models
    · rw [he]
      simpa [empty] using Registry.Shows.empty replicas
  exact hempty.responses hids hs

/-- A request that puts a replica under an id which looks like the key of a node. -/
def putNodeLike : Http.Request :=
  ⟨.put, "/api/replicas/node%3A1", some "application/json", utf8 "\x7b\"model_id\": \"m\"\x7d"⟩

/-- A request for that replica. -/
def getNodeLike : Http.Request :=
  ⟨.get, "/api/replicas/node%3A1", none, []⟩

theorem ofRequest_nodeLike :
    Command.ofRequest putNodeLike = .ok (.putReplica "node:1" { modelId := "m" }) ∧
      Command.ofRequest getNodeLike = .ok (.getReplica "node:1") := by
  have hput : putNodeLike.path = "/api/replicas/node%3A1" := by decide +kernel
  have hget : getNodeLike.path = "/api/replicas/node%3A1" := by decide +kernel
  have hroute : Api.Route.ofPath? "/api/replicas/node%3A1" = some (.replica "node%3A1") := by
    decide +kernel
  have hid : Http.unescapeText? "node%3A1" = some "node:1" := by decide +kernel
  have hbody : Api.readBody Replica.codec putNodeLike = .ok { modelId := "m" } := by rfl
  constructor
  · rw [Command.ofRequest_of_path hput hroute]
    dsimp only [Command.onRoute, putNodeLike]
    rw [Api.readId, hid]
    dsimp only [putNodeLike] at hbody
    rw [hbody]
    rfl
  · rw [Command.ofRequest_of_path hget hroute]
    dsimp only [Command.onRoute, getNodeLike]
    rw [Api.readId, hid]
    rfl

/-- The replica is found again. -/
theorem responses_eq_nodeLike :
    Service.responses ⟨.refreshHeartbeat, Api.numberedId⟩
      [⟨⟨0, 0⟩, "a", putNodeLike⟩, ⟨⟨0, 0⟩, "b", getNodeLike⟩] ⟨⟨.volatile .new, {}⟩, 0⟩ =
        [some (Answer.success.response),
          some (Answer.one Replica.codec ⟨"node:1", "m", "", .pending, 0, "", none⟩).response] := by
  obtain ⟨hput, hget⟩ := ofRequest_nodeLike
  have hs : ∀ call ∈ [(⟨⟨0, 0⟩, "a", putNodeLike⟩ : Call), ⟨⟨0, 0⟩, "b", getNodeLike⟩], ∀ command,
      Command.ofRequest call.request = .ok command → Survives command := by
    intro call hc command hread
    rw [List.mem_cons, List.mem_singleton] at hc
    rcases hc with rfl | rfl
    · obtain rfl := Except.ok.inj (hput.symm.trans hread)
      trivial
    · obtain rfl := Except.ok.inj (hget.symm.trans hread)
      trivial
  have hworks : (⟨.volatile .new, {}⟩ : Backing).Works := ⟨trivial, rfl⟩
  rw [responses_eq Api.numberedId_ne_empty hworks
    rfl hs]
  have hfirst : Catalogue.empty.respond Api.numberedId ⟨⟨0, 0⟩, "a", putNodeLike⟩ =
      (some Answer.success.response, ⟨∅, Std.TreeMap.insert ∅ "node:1"
        ⟨"node:1", "m", "", .pending, 0, "", none⟩, 0⟩) := by
    unfold Catalogue.respond
    rw [hput]
    rfl
  have hsecond : (Catalogue.mk ∅ (Std.TreeMap.insert ∅ "node:1"
        ⟨"node:1", "m", "", .pending, 0, "", none⟩) 0).respond Api.numberedId
          ⟨⟨0, 0⟩, "b", getNodeLike⟩ =
      (some (Answer.one Replica.codec ⟨"node:1", "m", "", .pending, 0, "", none⟩).response,
        ⟨∅, Std.TreeMap.insert ∅ "node:1" ⟨"node:1", "m", "", .pending, 0, "", none⟩, 0⟩) := by
    unfold Catalogue.respond
    rw [hget]
    show (some (fetch _ _ _ _ _).response, _) = _
    unfold fetch
    rw [Std.TreeMap.getElem?_insert_self]
  simp only [Catalogue.responses, hfirst, hsecond, Option.toList, List.map, List.cons_append,
    List.nil_append]

end Catalogue

end ControlPlane
