import ControlPlane.Proofs.Detector.Stamps

/-!
# What a pass makes of replicas

The record of a replica is brought in line with the answers of the nodes that it is assigned to, in
the order of the nodes, and as often as it is assigned (`Detector.answers`). What that comes to is
told by the last of these answers, and what it says of errors by the last one that names the replica
(`Replica.Follows`). On a store that works a pass makes exactly this of every replica, whatever else
it does (`Detector.pass_replicas`).
-/

namespace ControlPlane

/-! ## Reported words -/

/-- The words by which a node can report a status. -/
def ReplicaStatus.reportable : List String :=
  ["pending", "running", "completed", "failed"]

theorem ReplicaStatus.name_ofReport {word : String} (h : word ∈ reportable) :
    (ofReport word).name = word := by
  simp only [reportable, List.mem_cons, List.not_mem_nil, or_false] at h
  rcases h with rfl | rfl | rfl | rfl <;> decide

theorem ReplicaStatus.ofReport_of_not_mem {word : String} (h : word ∉ reportable) :
    ofReport word = .unknown := by
  unfold ofReport
  cases hf : names.find? (·.1 == word) with
  | none => rfl
  | some entry =>
    obtain ⟨word', status⟩ := entry
    have hw : word' = word := by simpa using List.find?_some hf
    have hmem := List.mem_of_find?_eq_some hf
    subst hw
    simp only [reportable, List.mem_cons, List.not_mem_nil, or_false, not_or] at h
    simp only [names, List.mem_cons, Prod.mk.injEq, List.not_mem_nil, or_false, h, false_and,
      false_or] at hmem
    exact hmem.2

/-! ## Replicas after answers -/

namespace Replica

variable {id : String} {now : Instant} {a : Replica} {rs : List HeartbeatResponse}
  {r : HeartbeatResponse}

/-- A replica after answers about it, one after the other. -/
def follow (id : String) (now : Instant) (a : Replica) (rs : List HeartbeatResponse) : Replica :=
  rs.foldl (fun a r => a.observed (r.observe id) now) a

@[simp] theorem follow_nil : follow id now a [] = a :=
  rfl

@[simp] theorem follow_cons :
    follow id now a (r :: rs) = follow id now (a.observed (r.observe id) now) rs :=
  rfl

theorem follow_concat :
    follow id now a (rs ++ [r]) = (follow id now a rs).observed (r.observe id) now :=
  List.foldl_append

/-- An answer changes neither who the replica is nor what it runs. -/
theorem observed_same (a : Replica) (report : Option ReplicaReport) (now : Instant) :
    (a.observed report now).id = a.id ∧ (a.observed report now).modelId = a.modelId ∧
      (a.observed report now).name = a.name := by
  cases report <;> exact ⟨rfl, rfl, rfl⟩

/-- What a replica is after some answers, compared with what it was before. -/
structure Follows (id : String) (rs : List HeartbeatResponse) (now : Instant)
    (a a' : Replica) : Prop where
  same : a'.id = a.id ∧ a'.modelId = a.modelId ∧ a'.name = a.name
  /-- The last answer tells the status. -/
  last : ∀ r, rs.getLast? = some r → a'.lastHeartbeat = some now ∧
    (r.observe id = none → a'.status = .unknown) ∧
    ∀ report, r.observe id = some report →
      (report.status ∈ ReplicaStatus.reportable → a'.status.name = report.status) ∧
      (report.status ∉ ReplicaStatus.reportable → a'.status = .unknown)
  /-- The last answer that names the replica tells the error. -/
  error : ∀ report, (rs.filterMap (·.observe id)).getLast? = some report →
    a'.errorCode = report.errorCode ∧ a'.errorMessage = report.errorMessage
  unnamed : rs.filterMap (·.observe id) = [] →
    a'.errorCode = a.errorCode ∧ a'.errorMessage = a.errorMessage
  unanswered : rs = [] → a' = a

theorem Follows.refl (id : String) (now : Instant) (a : Replica) : Follows id [] now a a where
  same := ⟨rfl, rfl, rfl⟩
  last _ h := by simp at h
  error _ h := by simp at h
  unnamed _ := ⟨rfl, rfl⟩
  unanswered _ := rfl

/-- One more answer. -/
theorem Follows.concat {a' : Replica} (h : Follows id rs now a a') (r : HeartbeatResponse) :
    Follows id (rs ++ [r]) now a (a'.observed (r.observe id) now) := by
  obtain ⟨hid, hmodel, hname⟩ := a'.observed_same (r.observe id) now
  obtain ⟨hid', hmodel', hname'⟩ := h.same
  refine ⟨⟨hid.trans hid', hmodel.trans hmodel', hname.trans hname'⟩, ?_, ?_, ?_, ?_⟩
  · intro r' hr'
    obtain rfl : r = r' := by simpa using hr'
    refine ⟨?_, ?_, ?_⟩
    · cases r.observe id <;> rfl
    · intro hnone
      rw [hnone]
      rfl
    · intro report hreport
      rw [hreport]
      exact ⟨ReplicaStatus.name_ofReport, ReplicaStatus.ofReport_of_not_mem⟩
  · intro report hlast
    rw [List.filterMap_append] at hlast
    cases ho : r.observe id with
    | none => exact h.error report (by simpa [ho] using hlast)
    | some report' =>
      obtain rfl : report' = report := by simpa [ho] using hlast
      exact ⟨rfl, rfl⟩
  · intro hnone
    rw [List.filterMap_append, List.append_eq_nil_iff] at hnone
    cases ho : r.observe id with
    | none => exact h.unnamed hnone.1
    | some report => simp [ho] at hnone
  · intro hnil
    simp at hnil

/-- What a replica is after answers is what the last of them tell. -/
theorem follows_follow (id : String) (now : Instant) (a : Replica) (rs : List HeartbeatResponse) :
    Follows id rs now a (follow id now a rs) := by
  induction rs using List.reverseRecOn with
  | nil => exact .refl id now a
  | append_singleton rs r ih =>
    rw [follow_concat]
    exact ih.concat r

end Replica

namespace Detector

variable {b : Backing} {now : Readings} {id : String} {ns : List Node}
  {outcome : Node → Except ProbeError HeartbeatResponse}

/-! ## The answers about a replica -/

/-- The answers of nodes that a replica is assigned to, in the order of the nodes and each as often
as the replica is assigned. -/
def answers (outcome : Node → Except ProbeError HeartbeatResponse) (ns : List Node)
    (id : String) : List HeartbeatResponse :=
  ns.flatMap fun n =>
    match outcome n with
    | .ok r => List.replicate (n.assignedReplicas.count id) r
    | .error _ => []

theorem mem_answers {r : HeartbeatResponse} :
    r ∈ answers outcome ns id ↔ ∃ n ∈ ns, outcome n = .ok r ∧ id ∈ n.assignedReplicas := by
  unfold answers
  rw [List.mem_flatMap]
  refine exists_congr fun n => and_congr_right fun _ => ?_
  cases outcome n with
  | ok r' => simp [List.mem_replicate, List.count_eq_zero, eq_comm, and_comm]
  | error e => simp

/-- The touches of the record of a replica in a pass are those of the answers about it. -/
theorem on_passTouches_replica (grace : Nat) (now : Readings) :
    Touch.on (replicas.key id) (passTouches grace now outcome ns) =
      (answers outcome ns id).map fun r => replicaTouch r now.ended id := by
  unfold answers
  rw [on_passTouches, List.map_flatMap]
  refine congrArg (List.flatMap · ns) (funext fun n => ?_)
  rw [on_touches_replica]
  cases outcome n with
  | ok r =>
    show List.replicate _ _ = (List.replicate _ r).map fun r => replicaTouch r now.ended id
    rw [List.map_replicate]
  | error e => rfl

/-! ## The records of replicas -/

/-- A replica is written with a genuine time. -/
theorem fits_observed_genuine {now : Instant} (a : Replica) (report : Option ReplicaReport)
    (hnow : now.Genuine) :
    replicas.genuine.Fits (a.observed report now) := by
  have htime : ∀ t, some now = some t → t.Genuine := fun t ht => Option.some.inj ht ▸ hnow
  cases report <;>
    exact ⟨by decide, trivial, trivial, trivial, trivial, trivial, trivial, htime, trivial⟩

/-- The record of a replica after an answer. -/
theorem ofBytes_replicaTouch {now : Instant} {bs : Bytes} {a : Replica} (r : HeartbeatResponse)
    (hnow : now.Genuine) (hid : id ≠ "") (hbs : replicas.codec.ofBytes bs = .ok a)
    (ha : a.id = id) : replicas.codec.ofBytes ((replicaTouch r now id).change bs) =
      .ok (a.observed (r.observe id) now) := by
  obtain ⟨hsame, -, -⟩ := a.observed_same (r.observe id) now
  have hstamp : reviseReplica r now id a = .ok (a.observed (r.observe id) now) := by
    have hown : (a.observed (r.observe id) now).id = id := hsame.trans ha
    rw [reviseReplica, Registry.stamp_of_matching hid (.inr hown)]
    generalize a.observed (r.observe id) now = a' at hown
    subst hown
    rfl
  have hfits := fits_observed_genuine a (r.observe id) hnow
  unfold replicaTouch
  rw [Registry.touch_change_of_ok hid hbs hstamp, replicas.genuine.codec.ofBytes_toBytes hfits,
    Replica.settle_eq]

/-- The record of a replica after answers, one after the other. -/
theorem run_replicaTouch {now : Instant} {bs : Bytes} {a : Replica} (rs : List HeartbeatResponse)
    (hnow : now.Genuine) (hid : id ≠ "") (hbs : replicas.codec.ofBytes bs = .ok a)
    (ha : a.id = id) : ∃ bs', Touch.run (rs.map fun r => replicaTouch r now id) (some bs) =
      some bs' ∧ replicas.codec.ofBytes bs' = .ok (a.follow id now rs) := by
  induction rs generalizing bs a with
  | nil => exact ⟨bs, rfl, hbs⟩
  | cons r rs ih =>
    obtain ⟨hsame, -, -⟩ := a.observed_same (r.observe id) now
    exact ih (ofBytes_replicaTouch r hnow hid hbs ha) (hsame.trans ha)

/-- On a store that works and can be read, a pass brings every replica in line with the answers
about it, one after the other in the order of the nodes: so its status and the time of its last
heartbeat are those of the last node that answered and has it assigned, its error is the last one
that was reported, and the rest stays. A replica that is assigned to no node that answered is left
alone. -/
theorem pass_replicas (hw : b.Works) (hnodes : nodes.Keeps (Node.Lasts 1) b.store)
    (hreplicas : replicas.Keeps (fun _ => True) b.store) (hnow : now.Both Instant.Genuine)
    (grace : Nat) (outcome : Node → Except ProbeError HeartbeatResponse) :
    ∃ ns o, nodesWithStatus b.store probedStatuses = .ok ns ∧
      (ns.Pairwise fun n k => n.id < k.id) ∧
      (∀ n, n ∈ ns ↔ nodes.get b.store n.id = .ok (some n) ∧ n.status ∈ probedStatuses) ∧
      pass (askEach outcome) grace ⟨b, now, ()⟩ = .ok o ∧ o.ending = .finished ∧
      ∀ id,
        (∀ a, replicas.get b.store id = .ok (some a) → ∃ a',
          replicas.get o.scene.backing.store id = .ok (some a') ∧
          a' = a.follow id now.ended (answers outcome ns id) ∧
          Replica.Follows id (answers outcome ns id) now.ended a a') ∧
        (replicas.get b.store id = .ok none →
          replicas.get o.scene.backing.store id = .ok none) ∧
        ((∀ n ∈ ns, id ∈ n.assignedReplicas → ∃ e, outcome n = .error e) →
          o.scene.backing.store.get? (replicas.key id) = b.store.get? (replicas.key id)) := by
  obtain ⟨ns, hns, hsorted, hmem⟩ := probed_spec hnodes hw.plain
  obtain ⟨o, hpass, hending, hw', ht⟩ := pass_touched hw hnodes hnow grace outcome hns
    (nodup_of_sorted hsorted)
  refine ⟨ns, o, hns, hsorted, ?_, hpass, hending, ?_⟩
  · intro n
    rw [hmem, Registry.get_some_iff hw.plain]
    refine and_congr_left fun _ => ⟨fun hn => ⟨(hnodes.of_finds hn).1, hn⟩, And.right⟩
  intro id
  refine ⟨?_, ?_, ?_⟩
  · intro a ha
    obtain ⟨hid, hfinds⟩ := (Registry.get_some_iff hw.plain).1 ha
    obtain ⟨-, hown, -⟩ := hreplicas.of_finds hfinds
    obtain ⟨bs, hbs, hd⟩ := hfinds
    obtain ⟨bs', hrun, hd'⟩ := run_replicaTouch (answers outcome ns id) hnow.ended hid hd hown
    refine ⟨_, (Registry.get_some_iff hw'.plain).2 ⟨hid, bs', ?_, hd'⟩, rfl,
      Replica.follows_follow id now.ended a _⟩
    rw [ht, on_passTouches_replica, hbs, hrun]
  · intro hnone
    obtain ⟨hid, hnone⟩ := (Registry.get_none_iff hw.plain).1 hnone
    refine (Registry.get_none_iff hw'.plain).2 ⟨hid, ?_⟩
    have hsome := ht.isSome_eq (replicas.key id)
    rw [hnone] at hsome
    simpa using hsome
  · intro hsilent
    have hanswers : answers outcome ns id = [] := by
      refine List.eq_nil_iff_forall_not_mem.2 fun r hr => ?_
      obtain ⟨n, hn, hok, hassigned⟩ := mem_answers.1 hr
      obtain ⟨e, he⟩ := hsilent n hn hassigned
      rw [hok] at he
      cases he
    rw [hw'.plain.get?, hw.plain.get?]
    refine ht.get?_eq ?_
    rw [on_passTouches_replica, hanswers]
    rfl

/-- The answer of a node that reports its replica as running. -/
def runningAnswer : HeartbeatResponse :=
  ⟨"n", true, [⟨"r", "m", "r", "1", "running", 0, ""⟩]⟩

/-- A replica that is reported as running is running after the pass. -/
theorem pass_replicas_running : ∃ o a',
    pass (askEach fun _ => .ok runningAnswer) 0 ⟨solo, soloReadings, ()⟩ = .ok o ∧
    replicas.get o.scene.backing.store "r" = .ok (some a') ∧ a'.status.name = "running" ∧
    a'.lastHeartbeat = some ⟨1, 0⟩ := by
  have hreplicas : replicas.Keeps (fun _ => True) solo.store :=
    solo_shows_replicas.keeps fun _ _ _ => trivial
  obtain ⟨ns, o, -, -, hmem, hpass, -, hids⟩ := pass_replicas solo_works solo_keeps_nodes
    hreplicas soloReadings_genuine 0 fun _ => .ok runningAnswer
  obtain ⟨hfound, -, -⟩ := hids "r"
  obtain ⟨a', ha', -, hfollows⟩ := hfound _ solo_get_replica
  have hasked : soloNode ∈ ns := (hmem soloNode).2 ⟨solo_get_node, by decide⟩
  have hanswered : answers (fun _ => .ok runningAnswer) ns "r" ≠ [] :=
    List.ne_nil_of_mem (mem_answers.2 ⟨soloNode, hasked, rfl, by decide⟩)
  obtain ⟨n, -, hlast, -⟩ := mem_answers.1 (List.getLast_mem hanswered)
  have hlast : (answers _ ns "r").getLast? = some runningAnswer :=
    (List.getLast?_eq_some_getLast hanswered).trans (congrArg some (Except.ok.inj hlast).symm)
  obtain ⟨htime, -, hnamed⟩ := hfollows.last _ hlast
  exact ⟨o, a', hpass, ha', (hnamed _ rfl).1 (by decide), htime⟩

end Detector

end ControlPlane
