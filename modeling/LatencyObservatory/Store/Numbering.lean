import LatencyObservatory.Store.Writer

/-!
# Segment numbering

The files of a store are the segments `1, 2, …` in the order of their creation. Such a directory lists
its files as they are, and a new session takes the next number. Changing a file by name then means
changing the last one.
-/

namespace LatencyObservatory.Store
open LatencyObservatory.Core LatencyObservatory.Lib

/-- The name of the `n`-th segment of a store. -/
def nthName (n : Nat) : Bytes :=
  segmentFileName (UInt32.ofNat n)

/-- The files are named by their position. -/
def Numbered (files : List File) : Prop :=
  ∀ i f, files[i]? = some f → f.name = nthName (i + 1)

theorem numbered_nil : Numbered [] := by
  intro i f h
  simp at h

theorem numbered_append {files : List File} {f : File} :
    Numbered (files ++ [f]) ↔ Numbered files ∧ f.name = nthName (files.length + 1) := by
  constructor
  · intro h
    refine ⟨fun i g hg => h i g ?_, h files.length f (by simp)⟩
    rw [List.getElem?_append_left (List.getElem?_eq_some_iff.mp hg).1]
    exact hg
  · rintro ⟨hfiles, hf⟩ i g hg
    rcases Nat.lt_trichotomy i files.length with hlt | rfl | hgt
    · rw [List.getElem?_append_left hlt] at hg
      exact hfiles i g hg
    · rw [List.getElem?_concat_length] at hg
      cases hg
      exact hf
    · have := (List.getElem?_eq_some_iff.mp hg).1
      rw [List.length_append, List.length_singleton] at this
      omega

theorem numbered_of_names {xs ys : List File} (h : xs.map File.name = ys.map File.name) (hxs : Numbered xs) :
    Numbered ys := by
  intro i f hf
  have hname : (ys.map File.name)[i]? = some f.name := by rw [List.getElem?_map, hf]; rfl
  rw [← h, List.getElem?_map, Option.map_eq_some_iff] at hname
  obtain ⟨g, hg, hgname⟩ := hname
  rw [← hgname]
  exact hxs i g hg

theorem nthName_lt {m n : Nat} (hmn : m < n) (hn : n < 2 ^ 32) : nthName m < nthName n := by
  refine segmentFileName_lt (UInt32.lt_iff_toNat_lt.mpr ?_)
  rw [UInt32.toNat_ofNat', UInt32.toNat_ofNat', Nat.mod_eq_of_lt hn, Nat.mod_eq_of_lt (by omega)]
  exact hmn

theorem segmentIdFromName_nthName (n : Nat) : segmentIdFromName (nthName n) = some (UInt32.ofNat n) :=
  segmentIdFromName_segmentFileName _

theorem name_ne_of_numbered {files : List File} (h : Numbered files) (hlen : files.length + 1 < 2 ^ 32)
    {f : File} (hf : f ∈ files) : f.name ≠ nthName (files.length + 1) := by
  obtain ⟨i, hi, hget⟩ := List.getElem_of_mem hf
  have hname := h i f (by rw [List.getElem?_eq_getElem hi, hget])
  intro hsame
  have hlt : f.name < nthName (files.length + 1) := by
    rw [hname]
    exact nthName_lt (by omega) hlen
  rw [hsame] at hlt
  exact List.lt_irrefl _ hlt

theorem listSegments_of_numbered {d : Directory} (h : Numbered d.files) (hlen : d.files.length < 2 ^ 32) :
    listSegments d = d.files := by
  have hall : d.files.filter (fun f => (segmentIdFromName f.name).isSome) = d.files := by
    refine List.filter_eq_self.mpr fun f hf => ?_
    obtain ⟨i, hi, hget⟩ := List.getElem_of_mem hf
    rw [h i f (by rw [List.getElem?_eq_getElem hi, hget]), segmentIdFromName_nthName]
    rfl
  have hsorted : d.files.Pairwise fun a b => a.name ≤ b.name := by
    refine List.pairwise_iff_getElem.mpr fun i j hi hj hij => ?_
    rw [h i _ (List.getElem?_eq_getElem hi), h j _ (List.getElem?_eq_getElem hj)]
    exact List.le_of_lt (nthName_lt (by omega) (by omega))
  rw [listSegments, hall, List.Pairwise.insertionSort_eq hsorted]

theorem nextSegment_of_numbered {files : List File} (h : Numbered files) (hlen : files.length < 2 ^ 32 - 1) :
    (StoreWriter.nextSegment files).toNat = files.length + 1 := by
  unfold StoreWriter.nextSegment
  cases hlast : files.getLast? with
  | none =>
    rw [List.getLast?_eq_none_iff] at hlast
    subst hlast
    rfl
  | some last =>
    rw [List.getLast?_eq_getElem?] at hlast
    have hpos : 0 < files.length := by
      by_contra hzero
      have hnil : files = [] := List.length_eq_zero_iff.mp (by omega)
      rw [hnil] at hlast
      simp at hlast
    have hname := h _ last hlast
    rw [show files.length - 1 + 1 = files.length by omega] at hname
    have hid : (UInt32.ofNat files.length).toNat = files.length := by
      rw [UInt32.toNat_ofNat', Nat.mod_eq_of_lt (by omega)]
    simp only [hname, segmentIdFromName_nthName]
    rw [if_pos (UInt32.lt_iff_toNat_lt.mpr (by rw [hid]; exact hlen)), UInt32.toNat_add, hid]
    exact Nat.mod_eq_of_lt (by change files.length + 1 < 2 ^ 32; omega)

/-! ## Changing the last file -/

section Last

variable {d : Directory} {files : List File} {f : File}

theorem update_last (hd : d.files = files ++ [f]) (hnum : Numbered d.files) (hlen : d.files.length < 2 ^ 32)
    (change : File → File) : (d.update f.name change).files = files ++ [change f] := by
  rw [hd] at hnum hlen
  rw [List.length_append, List.length_singleton] at hlen
  obtain ⟨hfiles, hf⟩ := numbered_append.mp hnum
  have hkept : files.map (fun g => if g.name = f.name then change g else g) = files := by
    refine (List.map_congr_left fun g hg => ?_).trans (List.map_id files)
    rw [hf, if_neg (name_ne_of_numbered hfiles hlen hg)]
    rfl
  simp only [Directory.update, hd, List.map_append, hkept, List.map_singleton, if_true]

theorem update_numbered (hnum : Numbered d.files) (name : Bytes) {change : File → File}
    (hchange : ∀ f, (change f).name = f.name) : Numbered (d.update name change).files := by
  refine numbered_of_names ?_ hnum
  rw [Directory.update, List.map_map]
  refine List.map_congr_left fun f _ => ?_
  simp only [Function.comp_apply]
  split
  · exact (hchange f).symm
  · rfl

theorem create_next (hnum : Numbered d.files) (hlen : d.files.length + 1 < 2 ^ 32) :
    (d.create (nthName (d.files.length + 1))).files = d.files ++ [⟨nthName (d.files.length + 1), [], 0⟩] := by
  rw [Directory.create, if_neg]
  rw [List.any_eq_true]
  rintro ⟨g, hg, hname⟩
  exact name_ne_of_numbered hnum hlen hg (by simpa using hname)

end Last

end LatencyObservatory.Store
