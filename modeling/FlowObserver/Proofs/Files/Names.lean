import FlowObserver.Files
import Mathlib.Data.String.Basic

/-!
# Names of files

A text that is split at one character is split like the list of its characters. So a name without
separators leads to a file of the working directory (`steps_of_name`), and what stands behind its
only point is its extension (`extension?_of_name`).
-/

namespace FlowObserver

section Splitting

open String

/-- Between `l`, which is dealt with, and `r`, which is still ahead, stands the part `m`. -/
theorem splitOnAux_of_valid (c : Char) (l m r : List Char) (acc : List String) :
    splitOnAux (ofList (l ++ m ++ r)) (singleton c) ⟨utf8Len l⟩ ⟨utf8Len l + utf8Len m⟩ 0 acc =
      acc.reverse ++ (List.splitOnPPrepend (· == c) r m.reverse).map ofList := by
  induction r generalizing l m acc with
  | nil =>
    have hend := atEnd_of_valid (l ++ m) []
    rw [utf8Len_append] at hend
    rw [splitOnAux, if_pos (hend.mpr rfl), extract_of_valid l m []]
    simp
  | cons d r ih =>
    have hend := atEnd_of_valid (l ++ m) (d :: r)
    have hget := get_of_valid (l ++ m) (d :: r)
    have hnext := next_of_valid (l ++ m) d r
    have hextract := extract_of_valid l m (d :: r)
    have hseparator : Pos.Raw.get (singleton c) 0 = c := get_of_valid [] [c]
    have hafter : Pos.Raw.next (singleton c) 0 = ⟨c.utf8Size⟩ := by
      simpa using next_of_valid [] c []
    have hsingle : Pos.Raw.atEnd (singleton c) ⟨c.utf8Size⟩ = true := by
      simpa using atEnd_of_valid [c] []
    rw [utf8Len_append] at hend hget hnext
    rw [splitOnAux, if_neg (mt hend.mp (List.cons_ne_nil _ _))]
    simp only [hseparator, hget, hnext, hafter, hsingle, List.headD_cons, if_true, beq_iff_eq,
      List.splitOnPPrepend_cons_eq_if]
    by_cases hd : d = c
    case pos =>
      have hback : (Pos.Raw.mk (utf8Len l + utf8Len m + d.utf8Size)).unoffsetBy ⟨c.utf8Size⟩ =
          ⟨utf8Len l + utf8Len m⟩ := by simp [Pos.Raw.unoffsetBy, hd]
      rw [if_pos hd, if_pos hd, hback, hextract]
      simpa [-ofList_append, Nat.add_assoc] using ih (l ++ m ++ [d]) [] (ofList m :: acc)
    case neg =>
      have hhere : (Pos.Raw.mk (utf8Len l + utf8Len m)).unoffsetBy 0 = ⟨utf8Len l + utf8Len m⟩ := rfl
      rw [if_neg hd, if_neg hd, hhere, hnext]
      simpa [-ofList_append, Nat.add_assoc] using ih l (m ++ [d]) acc

theorem splitOn_singleton (s : String) (c : Char) :
    s.splitOn (singleton c) = (s.toList.splitOn c).map ofList := by
  have hsplit := splitOnAux_of_valid c [] [] s.toList []
  rw [splitOn, if_neg (by simp), List.splitOn]
  simpa using hsplit

end Splitting

namespace Files

theorem steps_of_name {name : String} (hslash : '/' ∉ name.toList) (hempty : name ≠ "")
    (hhere : name ≠ ".") (hback : name ≠ "..") : steps name = [name] := by
  have hparts : name.splitOn "/" = [name] := by
    change name.splitOn (String.singleton '/') = [name]
    rw [splitOn_singleton, List.splitOn_eq_singleton hslash, List.map_singleton,
      String.ofList_toList]
  have hrelative : name.startsWith "/" = false :=
    String.startsWith_string_eq_false_iff.mpr fun hfirst => hslash (hfirst.subset (by decide))
  simp [steps, hparts, hrelative, hempty, hhere, hback]

theorem entryAt?_of_name {files : Files} {name : String} {path : List String} {entry : FileEntry}
    (hsteps : steps name = [name]) (hslash : '/' ∉ name.toList) (hempty : name ≠ "")
    (hfile : files.isDirectory [name] = false)
    (hfound : files.find? (fun entry => entry.1 = [name]) = some (path, entry)) :
    files.entryAt? name = some entry := by
  have hend {part : String} (hpart : '/' ∈ part.toList) : name.endsWith part = false := by
    rw [← String.endsWith_toSlice, String.Slice.endsWith_string_eq_false_iff, String.copy_toSlice]
    exact fun hlast => hslash (hlast.subset hpart)
  have hfinal : name.endsWith "/" = false := hend (by decide)
  have hpoint : name.endsWith "/." = false := hend (by decide)
  simp [entryAt?, hsteps, hempty, hfile, hfinal, hpoint, hfound]

theorem extension?_of_name {name : String} (stem extension : String) (hsteps : steps name = [name])
    (hname : name.toList = stem.toList ++ '.' :: extension.toList) (hstem : stem ≠ "")
    (hfirst : '.' ∉ stem.toList) (hlast : '.' ∉ extension.toList) :
    extension? name = some extension := by
  have hparts : name.splitOn "." = [stem, extension] := by
    change name.splitOn (String.singleton '.') = _
    rw [splitOn_singleton, hname, List.splitOn_append_cons_self_of_not_mem hfirst,
      List.splitOn_eq_singleton hlast]
    simp
  simp [extension?, hsteps, hparts, hstem]

end Files
end FlowObserver
