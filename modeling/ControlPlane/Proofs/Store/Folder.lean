import ControlPlane.Proofs.Store.Durable

/-!
# Durable stores: the folder of a log

Where the log of a folder is found the folder is there: every place on the way to a file is a
folder (`Disk.folder_of_follow`), so nothing is made when the store is opened
(`Durable.hasFolder_of_openToRead`).
-/

namespace ControlPlane

namespace Disk

variable {d : Disk} {p : Place} {name : String}

/-! ## Ways through folders -/

/-- Whether the way to a place, the place itself included, leads through folders only. -/
def Reached (d : Disk) (p : Place) : Prop :=
  ∀ q, q <+: p → d.entry? q = some .folder

theorem reached_nil (d : Disk) : d.Reached [] := by
  intro q hq
  rw [List.prefix_nil.1 hq]
  rfl

theorem Reached.folder (h : d.Reached p) : d.entry? p = some .folder :=
  h p (List.prefix_rfl)

theorem Reached.concat (h : d.Reached p) (he : d.entry? (p ++ [name]) = some .folder) :
    d.Reached (p ++ [name]) := by
  intro q hq
  rcases List.prefix_concat_iff.1 hq with rfl | hq
  · exact he
  · exact h q hq

theorem Reached.dropLast (h : d.Reached p) : d.Reached p.dropLast :=
  fun q hq => h q (hq.trans (List.dropLast_prefix p))

/-- What stands before the last name of a path that leads somewhere is a folder. -/
theorem folder_of_follow {links : Nat} {folder : Place} {names : List String}
    (hf : d.Reached folder) (h : d.follow true links folder (names ++ [name]) = .ok p) :
    ∃ q, d.follow true links folder names = .ok q ∧ d.entry? q = some .folder := by
  generalize hlast : true = last at h ⊢
  fun_induction d.follow last links folder names with
  | case1 links folder => exact ⟨folder, rfl, hf.folder⟩
  | case2 links folder rest ih =>
    rw [List.cons_append, follow] at h
    exact ih hf.dropLast h
  | case3 links folder n rest hn p hp _ | case4 links folder n rest hn p hp _ =>
    rw [List.cons_append, follow_cons hn, hp] at h
    simp at h
  | case5 links folder n rest hn p hp ih =>
    rw [List.cons_append, follow_cons hn, hp] at h
    exact ih (hf.concat hp) h
  | case6 links folder n rest hn p number hp _ | case7 links folder n rest hn p number hp _ =>
    rw [List.cons_append, follow_cons hn, hp] at h
    simp at h
  | case8 links folder n rest hn p target hp hr =>
    subst hlast
    simp at hr
  | case9 folder n rest hn p target hp hr =>
    rw [List.cons_append, follow_cons hn, hp] at h
    simp at h
  | case10 folder n rest hn p target hp hr links start ih =>
    have hr' : ¬((rest ++ [name]).isEmpty && !last) = true := by simp
    rw [List.cons_append, follow_cons hn, hp] at h
    dsimp only at h
    rw [if_neg hr', ← List.append_assoc] at h
    refine ih ?_ h
    show d.Reached (if d.isAbsolute target then [] else folder)
    split
    · exact reached_nil d
    · exact hf

/-- A path to a folder makes nothing. -/
theorem made_of_locate {path : List String} (h : d.locate true path = .ok p)
    (he : d.entry? p = some .folder) : d.Made path.reverse := by
  right
  rw [List.reverse_reverse]
  obtain ⟨q, hq⟩ := follow_false_of_true h
  refine ⟨isFolder_eq_true.2 ⟨p, h, he⟩, q, hq, ?_⟩
  rw [Option.isSome_iff_ne_none]
  intro hn
  have hqp : q = p := Except.ok.inj ((follow_true_of_vacant hq hn).symm.trans h)
  rw [hqp, he] at hn
  cases hn

/-! ## Paths in a folder -/

theorem splitPath_ne_nil (part cs : List Char) : splitPath part cs ≠ [] := by
  induction cs generalizing part with
  | nil => exact List.cons_ne_nil _ _
  | cons c cs ih =>
    rw [splitPath]
    split
    · exact List.cons_ne_nil _ _
    · exact ih _

/-- What stands before a slash and behind it is split on its own. -/
theorem splitPath_append (part cs ds : List Char) :
    splitPath part (cs ++ '/' :: ds) = splitPath part cs ++ splitPath [] ds := by
  induction cs generalizing part with
  | nil => rfl
  | cons c cs ih =>
    rw [List.cons_append, splitPath, splitPath]
    split
    · rw [ih, List.cons_append]
    · exact ih _

/-- A path goes on where its front leads to. -/
theorem parts_of_split {path : String} {front rest : List String} (hf : front ≠ [])
    (h : splitPath [] path.toList = front ++ rest) :
    d.parts path = ((if front.head? == some d.home then front.drop 1 else front) ++ rest).filter
      fun p => p ≠ "" ∧ p ≠ "." := by
  obtain ⟨x, xs, rfl⟩ := List.exists_cons_of_ne_nil hf
  unfold parts isAbsolute
  rw [h]
  simp only [List.cons_append, List.head?_cons, List.drop_succ_cons, List.drop_zero]
  split <;> rfl

end Disk

namespace Durable

open Disk

variable {d : Disk} {folder : String} {file : Nat}

/-- The path of the log leads through the folder. -/
theorem parts_inFolder (d : Disk) (h : folder ≠ "") :
    d.parts (inFolder folder logName) = d.parts folder ++ [logName] := by
  have hlog : splitPath [] logName.toList = [logName] := by decide +kernel
  have hkeep : [logName].filter (fun p => p ≠ "" ∧ p ≠ ".") = [logName] := by decide +kernel
  by_cases he : (folder.isEmpty || folder.endsWith "/") = true
  · -- the folder ends in a slash, behind which it has an empty part
    obtain ⟨cs, hcs⟩ : ∃ cs, folder.toList = cs ++ ['/'] := by
      rcases Bool.or_eq_true _ _ ▸ he with he | he
      · exact absurd (String.isEmpty_iff.1 he) h
      · rw [String.endsWith_eq_endsWith_toSlice, String.Slice.endsWith_string_iff,
          String.copy_toSlice] at he
        exact ⟨_, he.choose_spec.symm⟩
    have hfront : splitPath [] folder.toList = splitPath [] cs ++ [""] := by
      rw [hcs, splitPath_append]
      rfl
    have hpath : splitPath [] (inFolder folder logName).toList = splitPath [] cs ++ [logName] := by
      rw [inFolder, if_pos he, String.toList_append, hcs, List.append_assoc]
      rw [List.singleton_append, splitPath_append, hlog]
    rw [parts_of_split (splitPath_ne_nil _ _) hfront, parts_of_split (splitPath_ne_nil _ _) hpath,
      List.filter_append, List.filter_append, hkeep]
    simp
  · have hpath : splitPath [] (inFolder folder logName).toList =
        splitPath [] folder.toList ++ [logName] := by
      rw [inFolder, if_neg he, String.toList_append, String.toList_append, List.append_assoc]
      show splitPath [] (folder.toList ++ '/' :: logName.toList) = _
      rw [splitPath_append, hlog]
    have hfront := (List.append_nil (splitPath [] folder.toList)).symm
    rw [parts_of_split (splitPath_ne_nil _ _) hfront, parts_of_split (splitPath_ne_nil _ _) hpath,
      List.filter_append, hkeep, List.append_nil]

/-- Where the log of a folder is found the folder is there. -/
theorem hasFolder_of_openToRead
    (h : d.openToRead (inFolder folder logName) = .ok (some file)) : d.HasFolder folder := by
  by_cases hf : folder = ""
  · left
    subst hf
    rw [parts_of_split (d := d) (List.cons_ne_nil "" []) rfl]
    split <;> rfl
  · obtain ⟨p, hp, -⟩ := openToRead_eq_ok.1 h
    rw [parts_inFolder d hf] at hp
    obtain ⟨q, hq, he⟩ := folder_of_follow (reached_nil d) hp
    exact made_of_locate hq he

end Durable

end ControlPlane
