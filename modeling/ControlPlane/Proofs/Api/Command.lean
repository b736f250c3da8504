import ControlPlane.Api.Identifier
import ControlPlane.Proofs.Api.Form
import ControlPlane.Proofs.Entity.Survival

/-!
# Requests: the ids and times they carry

The id in the path of a request is not empty once it is read, but for one whose status is to be set,
and the times in the body of a request are genuine (`Command.proper_ofRequest`).
-/

namespace ControlPlane

namespace Http

theorem eq_nil_of_unescape {bs : Bytes} (h : unescape bs = []) : bs = [] := by
  unfold unescape at h
  split at h
  · split at h <;> cases h
  · cases h
  · rfl

theorem eq_empty_of_unescapeText? {s : String} (h : unescapeText? s = some "") : s = "" := by
  obtain ⟨cs, hcs, hs⟩ := Option.map_eq_some_iff.1 h
  obtain rfl : cs = [] := by simpa using congrArg String.toList hs
  have hbytes := eq_nil_of_unescape (Utf8.eq_nil_of_decode? hcs)
  have hdecode := Utf8.decode?_encode s.toList
  rw [show Utf8.encode s.toList = [] from hbytes] at hdecode
  have hnil : ([] : List Char) = s.toList := Option.some.inj hdecode
  exact String.ext hnil.symm

end Http

namespace Api

/-! ## Ids -/

/-- An id that is read in a path is not empty if what stands there is not. -/
theorem readId_yields {escaped : String} (h : escaped ≠ "") :
    (readId escaped).Yields (· ≠ "") := by
  intro id hid
  unfold readId at hid
  split at hid
  · rename_i text ht
    obtain rfl := Except.ok.inj hid
    rintro rfl
    exact h (Http.eq_empty_of_unescapeText? ht)
  · cases hid

/-- The ids that new records get are not empty. -/
theorem numberedId_ne_empty (n : Nat) : numberedId n ≠ "" := by
  unfold numberedId
  generalize String.ofList _ = digits
  intro h
  have hchars := congrArg String.toList h
  rw [String.toList_append] at hchars
  have hstart := (List.append_eq_nil_iff.1 hchars).1
  revert hstart
  decide

/-- Whether what stands for the id of a record in a path is not empty. -/
def Route.Named : Route → Prop
  | .node id | .model id | .replica id => id ≠ ""
  | .health | .nodes | .nodeStatus _ | .models | .replicas => True

theorem Route.named_ofPath? {path : String} {route : Route} (h : ofPath? path = some route) :
    route.Named := by
  have nonempty : ∀ {id : String} {found : Route},
      (if id.isEmpty then none else some found) = some route → id ≠ "" ∧ found = route := by
    intro id found h
    split at h
    · cases h
    · rename_i he
      exact ⟨fun hid => he (String.isEmpty_iff.2 hid), Option.some.inj h⟩
  unfold ofPath? at h
  split at h
  case h_1 | h_2 | h_3 | h_4 | h_8 =>
    obtain rfl := Option.some.inj h
    trivial
  case h_5 | h_6 | h_7 =>
    obtain ⟨hid, rfl⟩ := nonempty h
    exact hid
  case h_9 => cases h

/-! ## Commands -/

namespace Command

/-- Whether a command has ids that are not empty where a path has to have one, and carries none but
genuine times. -/
def Proper : Command → Prop
  | .getNode id | .patchNode id _ | .removeNode id | .getModel id | .putModel id _
  | .removeModel id | .getReplica id | .removeReplica id => id ≠ ""
  | .addReplica r => replicas.genuine.Fits r
  | .putReplica id r => id ≠ "" ∧ replicas.genuine.Fits r
  | .health | .listNodes | .registerNode _ | .setNodeStatus _ _ | .listModels | .addModel _
  | .listReplicas _ => True

theorem proper_onRoute (r : Http.Request) {route : Route} (h : route.Named) :
    (onRoute r route).Yields Proper := by
  have hbody := readBody_yields Replica.genuineLaws (by decide) r
  unfold onRoute
  generalize r.method = method
  cases route with
  | health =>
    cases method with
    | get | head => exact .pure trivial
    | _ => exact .throw _
  | nodes =>
    cases method with
    | get | head => exact .pure trivial
    | post => exact .bind .any fun _ _ => .pure trivial
    | _ => exact .throw _
  | node id =>
    cases method with
    | get | head | delete => exact (readId_yields h).bind fun _ hid => .pure hid
    | patch => exact (readId_yields h).bind fun _ hid => .bind .any fun _ _ => .pure hid
    | _ => exact .throw _
  | nodeStatus id =>
    cases method with
    | put => exact .bind .any fun _ _ => .bind .any fun _ _ => .pure trivial
    | _ => exact .throw _
  | models =>
    cases method with
    | get | head => exact .pure trivial
    | post => exact .bind .any fun _ _ => .pure trivial
    | _ => exact .throw _
  | model id =>
    cases method with
    | get | head | delete => exact (readId_yields h).bind fun _ hid => .pure hid
    | put => exact (readId_yields h).bind fun _ hid => .bind .any fun _ _ => .pure hid
    | _ => exact .throw _
  | replicas =>
    cases method with
    | get | head => exact .bind .any fun _ _ => .pure trivial
    | post => exact hbody.bind fun _ hr => .pure hr
    | _ => exact .throw _
  | replica id =>
    cases method with
    | get | head | delete => exact (readId_yields h).bind fun _ hid => .pure hid
    | put => exact (readId_yields h).bind fun _ hid => hbody.bind fun _ hr => .pure ⟨hid, hr⟩
    | _ => exact .throw _

theorem proper_ofRequest {r : Http.Request} {c : Command} (h : ofRequest r = .ok c) :
    c.Proper := by
  unfold ofRequest at h
  split at h
  · rename_i route hroute
    exact proper_onRoute r (Route.named_ofPath? hroute) c h
  · cases h

end Command

end Api

end ControlPlane
