import PanelExport.Files.Tree
import PanelExport.Proofs.Numeral
import PanelExport.Proofs.Outcome

/-!
# The names of exports

A name that has something visible and nothing forbidden in it is kept as it is, and every name that
comes out of the replacing is one, if the fallback is. The name of an export is built from parts
that are allowed in names and ends with the extension, whichever way the title of its panel goes. So
the file that is saved under it stands right in its directory.

* `IsFileName.sanitizeName_eq`: which names are kept.
* `isFileName_sanitizeName`: what comes out of the replacing.
* `isExportName_exportNameOf`: the name of an export.
* `FileTree.save_eq_ok_iff`: when a file is saved under such a name, and where.
-/

namespace PanelExport

/-! ## Names that are kept -/

/-- A name that no file system forbids, with something visible in it. -/
structure IsFileName (name : String) : Prop where
  allowed : ∀ c ∈ name.toList, isForbidden c = false
  visible : isBlankText name = false

variable {name fallback : String}

/-- A name has none of the nine forbidden characters just if nothing in it is forbidden. -/
theorem forbidden_notMem_iff : (∀ c ∈ "/\\:*?\"<>|".toList, c ∉ name.toList) ↔
    ∀ c ∈ name.toList, isForbidden c = false := by
  have hchars : ∀ c, c ∈ "/\\:*?\"<>|".toList ↔ isForbidden c = true := fun c =>
    List.contains_iff_mem.symm
  simp only [hchars, ← Bool.not_eq_true]
  exact ⟨fun h c hc hforbidden => h c hforbidden hc, fun h c hforbidden hc => h c hc hforbidden⟩

theorem allowed_of_all (h : name.toList.all (!isForbidden ·) = true) :
    ∀ c ∈ name.toList, isForbidden c = false :=
  fun c hc => by simpa using List.all_eq_true.1 h c hc

/-- Where nothing is forbidden nothing is replaced. -/
theorem replaced_eq_self (h : ∀ c ∈ name.toList, isForbidden c = false) :
    String.ofList (name.toList.map fun c => if isForbidden c then '_' else c) = name := by
  have hmap : name.toList.map (fun c => if isForbidden c then '_' else c) = name.toList.map id :=
    List.map_congr_left fun c hc => by simp [h c hc]
  rw [hmap, List.map_id, String.ofList_toList]

theorem isForbidden_replaced (c : Char) :
    isForbidden (if isForbidden c then '_' else c) = false := by
  by_cases hc : isForbidden c = true
  · rw [if_pos hc]
    decide
  · rw [if_neg hc]
    exact Bool.of_not_eq_true hc

/-- A name that is not the fallback is the name with its forbidden characters replaced, and has a
visible character that is kept. -/
theorem sanitizeName_cases (name fallback : String) :
    sanitizeName name fallback = fallback ∨
      sanitizeName name fallback =
        String.ofList (name.toList.map fun c => if isForbidden c then '_' else c) ∧
      ∃ c ∈ name.toList, isForbidden c = false ∧ isBlank c = false := by
  unfold sanitizeName
  split
  · exact .inl rfl
  · split
    · exact .inl rfl
    · rename_i hvisible
      refine .inr ⟨rfl, ?_⟩
      simpa [and_comm] using hvisible

/-- Sanitizing leaves a file name as it is. -/
theorem IsFileName.sanitizeName_eq (h : IsFileName name) (fallback : String) :
    sanitizeName name fallback = name := by
  have hkept : name.toList.filter (!isForbidden ·) = name.toList :=
    List.filter_eq_self.2 fun c hc => by simp [h.allowed c hc]
  have hvisible : (name.toList.filter (!isForbidden ·)).all isBlank = false := by
    rw [hkept]
    exact h.visible
  rw [sanitizeName, if_neg (by simp [h.visible]), if_neg (by simp [hvisible]),
    replaced_eq_self h.allowed]

/-- What comes out of the replacing is a file name, or the fallback. -/
theorem isFileName_sanitizeName (h : sanitizeName name fallback ≠ fallback) :
    IsFileName (sanitizeName name fallback) := by
  obtain ⟨hname, c, hc, hallowed, hvisible⟩ :=
    (sanitizeName_cases name fallback).resolve_left h
  rw [hname]
  refine ⟨fun d hd => ?_, isBlankText_eq_false_iff.2 ⟨c, ?_, hvisible⟩⟩
  · rw [String.toList_ofList] at hd
    obtain ⟨e, -, rfl⟩ := List.mem_map.1 hd
    exact isForbidden_replaced e
  · rw [String.toList_ofList]
    exact List.mem_map.2 ⟨c, hc, by simp [hallowed]⟩

theorem isFileName_defaultName : IsFileName defaultName where
  allowed := allowed_of_all (by decide)
  visible := by decide

/-- Whatever is sanitized becomes a file name. -/
theorem isFileName_sanitizeName_default (name : String) :
    IsFileName (sanitizeName name defaultName) := by
  by_cases h : sanitizeName name defaultName = defaultName
  · rw [h]
    exact isFileName_defaultName
  · exact isFileName_sanitizeName h

/-! ## Names of exports -/

/-- A file name that ends with the extension of exports. -/
structure IsExportName (name : String) : Prop extends IsFileName name where
  extension : ∃ stem, name = stem ++ exportExtension

theorem allowed_append {s t : String} (hs : ∀ c ∈ s.toList, isForbidden c = false)
    (ht : ∀ c ∈ t.toList, isForbidden c = false) :
    ∀ c ∈ (s ++ t).toList, isForbidden c = false := by
  simpa only [String.toList_append] using List.forall_mem_append.2 ⟨hs, ht⟩

/-- Whatever is allowed in names can be put in front of the extension. -/
theorem isExportName_append {stem : String} (h : ∀ c ∈ stem.toList, isForbidden c = false) :
    IsExportName (stem ++ exportExtension) where
  allowed := allowed_append h (allowed_of_all (by decide))
  visible := isBlankText_eq_false_iff.2 ⟨'.', by simp [exportExtension], by decide⟩
  extension := ⟨stem, rfl⟩

theorem isExportName_defaultName : IsExportName defaultName where
  toIsFileName := isFileName_defaultName
  extension := ⟨"panel-export", by decide⟩

/-- Nothing in a whole number is forbidden. -/
theorem isForbidden_of_mem_toString {n : Int} {c : Char} (h : c ∈ (toString n).toList) :
    isForbidden c = false := by
  rcases eq_minus_or_isDigit_of_mem_toString h with rfl | hdigit
  · decide
  · refine Bool.eq_false_iff.2 fun hforbidden => ?_
    have hall : ['/', '\\', ':', '*', '?', '"', '<', '>', '|'].all (!·.isDigit) = true := by decide
    have hnot := List.all_eq_true.1 hall c (List.contains_iff_mem.1 hforbidden)
    simp [hdigit] at hnot

/-- The name of the export of a panel with a whole number, whatever its title is. -/
theorem isExportName_exportNameOf (id : Int) (title? : Option String) :
    IsExportName (exportNameOf (.int id) title?) := by
  unfold exportNameOf
  dsimp only
  split
  · have hpanel : ∀ c ∈ "panel-".toList, isForbidden c = false := allowed_of_all (by decide)
    have hshown : (Document.int id).shown = toString id := rfl
    rw [hshown]
    exact isExportName_append (allowed_append hpanel fun _ => isForbidden_of_mem_toString)
  · split
    · exact isExportName_defaultName
    · rename_i hstem
      exact isExportName_append (isFileName_sanitizeName hstem).allowed

namespace IsExportName

variable (h : IsExportName name)

include h

/-- The name of an export is too long for the names that mean a directory. -/
theorem ne_of_length_lt {other : String} (hlength : other.length < 5) : name ≠ other := by
  obtain ⟨stem, rfl⟩ := h.extension
  rintro rfl
  rw [String.length_append] at hlength
  have hextension : exportExtension.length = 5 := by decide
  omega

/-- No name of an export leads to another directory. -/
theorem slash_notMem : '/' ∉ name.toList := fun hmem =>
  absurd (h.allowed '/' hmem) (by decide)

end IsExportName

/-! ## Paths -/

namespace Path

/-- The path to a part that stands in the directory that a path leads to. -/
def child (p : Path) (name : String) : Path := ⟨p.root, p.parts ++ [name]⟩

theorem split_eq_singleton {cs : List Char} (h : '/' ∉ cs) : split cs = [cs] := by
  induction cs with
  | nil => rfl
  | cons c cs ih =>
    rw [List.mem_cons, not_or] at h
    rw [split, if_neg (Ne.symm h.1), ih h.2]

/-- The name of an export is an entry right in its directory. -/
theorem entry_eq_child (h : IsExportName name) (p : Path) : p.entry name = p.child name := by
  have hempty : name ≠ "" := h.ne_of_length_lt (by decide)
  have hpoint : name ≠ "." := h.ne_of_length_lt (by decide)
  simp [entry, child, partsOf, split_eq_singleton h.slash_notMem, hempty, hpoint]

/-- One more part that is not the way up is one more step down. -/
theorem walk_concat (hname : name ≠ "..") (place parts : List String) :
    walk place (parts ++ [name]) = walk place parts ++ [name] := by
  induction parts generalizing place with
  | nil => simp [walk, hname]
  | cons part parts ih =>
    rw [List.cons_append, walk, walk]
    split
    · split
      · split
        · exact ih _
        · exact ih _
      · exact ih _
    · exact ih _

/-- A child stands directly in the directory. -/
theorem place_child (hname : name ≠ "..") (p : Path) :
    (p.child name).place = p.place ++ [name] := by
  unfold place child
  split
  · exact walk_concat hname _ _
  · rw [walk_concat hname, List.cons_append]

end Path

/-! ## Saving -/

namespace FileTree

/-- A name under which a file can be made. -/
structure CanStand (name : String) : Prop where
  plain : '\x00' ∉ name.toList
  short : name.utf8ByteSize ≤ nameLimit

/-- Nothing is wrong with a path just if each of its parts can stand in one. -/
theorem pathFault?_eq_none_iff {p : Path} :
    pathFault? p = none ↔ ∀ part ∈ p.parts, CanStand part := by
  unfold pathFault?
  split
  · rename_i hnull
    obtain ⟨part, hpart, hcontains⟩ := List.any_eq_true.1 hnull
    exact iff_of_false (by simp) fun h => (h part hpart).plain (List.contains_iff_mem.1 hcontains)
  · rename_i hnull
    split
    · rename_i hlong
      obtain ⟨part, hpart, hsize⟩ := List.any_eq_true.1 hlong
      have hlt : nameLimit < part.utf8ByteSize := of_decide_eq_true hsize
      exact iff_of_false (by simp) fun h => by
        have := (h part hpart).short
        omega
    · rename_i hlong
      refine iff_of_true rfl fun part hpart => ⟨?_, ?_⟩
      · exact fun h =>
          hnull (List.any_eq_true.2 ⟨part, hpart, List.contains_iff_mem.2 h⟩)
      · exact Nat.le_of_not_lt fun h =>
          hlong (List.any_eq_true.2 ⟨part, hpart, decide_eq_true h⟩)

theorem pathFault?_of_makeDirectory {t made : FileTree} {p : Path}
    (h : t.makeDirectory p = .ok made) : pathFault? p = none := by
  unfold makeDirectory at h
  split at h
  · cases h
  · assumption

/-- Saving under the name of an export puts one file right into the directory, and only what bars
the directory or the name itself bars it. -/
theorem save_eq_ok_iff (h : IsExportName name) {t t' : FileTree} {directory text : String}
    {path : Path} :
    t.save directory name text = .ok (path, t') ↔
      ∃ made, t.makeDirectory (Path.ofText directory) = .ok made ∧ CanStand name ∧
        made.isDirectory path.place = false ∧ path = (Path.ofText directory).child name ∧
        t' = made.write path.place text := by
  unfold save
  dsimp only
  rw [h.sanitizeName_eq, Path.entry_eq_child h, bind_eq_ok]
  refine exists_congr fun made => and_congr_right fun hmade => ?_
  have hparts := pathFault?_eq_none_iff.1 (pathFault?_of_makeDirectory hmade)
  have hfault : pathFault? ((Path.ofText directory).child name) = none ↔ CanStand name := by
    rw [pathFault?_eq_none_iff, Path.child, List.forall_mem_append, List.forall_mem_singleton,
      and_iff_right hparts]
  split
  · rename_i fault hsome
    refine iff_of_false (fun herror => by cases herror) fun hname => ?_
    rw [hfault.2 hname.1] at hsome
    cases hsome
  · rename_i hnone
    rw [and_iff_right (hfault.1 hnone)]
    split
    · rename_i hdirectory
      refine iff_of_false (fun herror => by cases herror) ?_
      rintro ⟨hplain, rfl, -⟩
      exact Bool.false_ne_true (hplain.symm.trans hdirectory)
    · rename_i hplain
      constructor
      · intro hsaved
        cases hsaved
        exact ⟨Bool.eq_false_iff.2 hplain, rfl, rfl⟩
      · rintro ⟨-, rfl, rfl⟩
        rfl

end FileTree

end PanelExport
