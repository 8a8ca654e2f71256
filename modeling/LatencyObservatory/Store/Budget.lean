import LatencyObservatory.Store.Acceptance
import LatencyObservatory.Store.History

/-!
# A budget for appends

An append costs the store its record and at most the footer of one segment, and it creates at most one file. What a
list of records costs therefore decides beforehand that the writer takes them all, wherever it rotates.
-/

namespace LatencyObservatory.Store
open LatencyObservatory.Core LatencyObservatory.Lib

/-! ### Bytes -/

/-- What an append adds at most to the size of the store. -/
def appendCost (entry : Entry) : Nat :=
  recordHeaderBytes + entry.2.length + segmentFooterBytes

namespace StoreWriter

/-- The writer is open, each of the records fits a segment, and the store may grow by all of them. -/
structure Affords (w : StoreWriter) (entries : List Entry) : Prop where
  isOpen : w.closed = false
  fits : ∀ entry ∈ entries, fits w.config.limits entry.2.length = true
  counted : w.totalBytes + (entries.map appendCost).sum < 2 ^ 64
  stored : w.totalBytes + (entries.map appendCost).sum ≤ w.config.limits.maxStoreBytes

theorem bytesBefore_le (w : StoreWriter) (recordBytes : Nat) :
    w.bytesBefore recordBytes ≤ w.totalBytes + segmentFooterBytes := by
  unfold bytesBefore
  split_ifs
  · exact Nat.le_refl _
  · exact Nat.le_add_right _ _

variable {w : StoreWriter} {entry : Entry}

theorem Affords.takes {rest : List Entry} (h : w.Affords (entry :: rest)) : w.takes entry.2.length = true := by
  obtain ⟨hopen, hfits, hcounted, hstored⟩ := h
  have hbefore := w.bytesBefore_le (recordHeaderBytes + entry.2.length)
  rw [List.map_cons, List.sum_cons, appendCost] at hcounted hstored
  unfold StoreWriter.takes
  rw [hopen, hfits entry List.mem_cons_self]
  simp only [Bool.not_false, Bool.true_and, Bool.and_eq_true, decide_eq_true_eq]
  constructor
  · omega
  · omega

/-- What an append that is taken leaves of the writer. -/
theorem appended_of_takes (h : w.takes entry.2.length = true) (now : Nanos) :
    (w.appended now entry).closed = false ∧ (w.appended now entry).config = w.config ∧
      (w.appended now entry).totalBytes ≤ w.totalBytes + appendCost entry := by
  have hopen : w.closed = false := by
    unfold StoreWriter.takes at h
    simp only [Bool.and_eq_true, Bool.not_eq_true'] at h
    exact h.1.1.1
  obtain ⟨htotal, hconfig⟩ := w.rotate_totalBytes now (recordHeaderBytes + entry.2.length) .empty
  have hbefore := w.bytesBefore_le (recordHeaderBytes + entry.2.length)
  have hok := (w.append_ok_iff now entry .empty).mpr h
  have hclosed := append_closed hopen now entry .empty
  rcases append_cases hopen now entry .empty with ⟨e, happend⟩ | ⟨-, e, happend⟩ | ⟨-, happend⟩
  · rw [happend] at hok
    cases hok
  · rw [happend] at hok
    cases hok
  · refine ⟨hclosed, ?_⟩
    unfold appended appendCost
    rw [happend]
    unfold writeRecord
    split
    · exact ⟨hconfig, by dsimp only; omega⟩
    · exact ⟨hconfig, by dsimp only; omega⟩

theorem Affords.appended {rest : List Entry} (h : w.Affords (entry :: rest)) (now : Nanos) :
    (w.appended now entry).Affords rest := by
  obtain ⟨hopen, hconfig, htotal⟩ := appended_of_takes h.takes now
  obtain ⟨-, hfits, hcounted, hstored⟩ := h
  rw [List.map_cons, List.sum_cons] at hcounted hstored
  refine ⟨hopen, ?_, by omega, ?_⟩
  · rw [hconfig]
    exact fun other hother => hfits other (List.mem_cons_of_mem _ hother)
  · rw [hconfig]
    omega

/-- The writer takes what it affords, and can afford the rest afterwards. -/
theorem Affords.takesAll {first second : List Entry} (h : w.Affords (first ++ second)) (now : Nanos) :
    takesAll now w first = true ∧ (w.appendedAll now first).Affords second := by
  induction first generalizing w with
  | nil => exact ⟨rfl, h⟩
  | cons entry rest ih =>
    obtain ⟨hall, hrest⟩ := ih (h.appended now)
    refine ⟨?_, hrest⟩
    rw [StoreWriter.takesAll, h.takes, hall]
    rfl

end StoreWriter

/-! ### Files -/

theorem openSegment_length_le (w : StoreWriter) (now : Nanos) (d : Directory) :
    (w.openSegment now d).2.files.length ≤ d.files.length + 1 := by
  simp only [StoreWriter.openSegment, Directory.write, update_length]
  unfold Directory.create
  split_ifs
  · rw [update_length]
    exact Nat.le_succ _
  · rw [List.length_append]
    exact Nat.le_refl _

/-- A segment that was just opened is not rotated, so no append creates two files. -/
theorem append_length_le (w : StoreWriter) (now : Nanos) (entry : Entry) (d : Directory) :
    (w.append now entry d).2.2.files.length ≤ d.files.length + 1 := by
  have hensure : (w.ensureSegment now d).2.files.length ≤ d.files.length + 1 := by
    unfold StoreWriter.ensureSegment
    split_ifs
    · exact openSegment_length_le w now d
    · exact Nat.le_succ _
  have hrotate : ((w.ensureSegment now d).1.rotate now (recordHeaderBytes + entry.2.length)
      (w.ensureSegment now d).2).2.files.length ≤ d.files.length + 1 := by
    unfold StoreWriter.rotate
    rw [w.ensureSegment_rotates]
    split_ifs with hturns
    · obtain ⟨name, hname⟩ := Option.isSome_iff_exists.mp (Bool.and_eq_true_iff.mp hturns).1
      have hsame : w.ensureSegment now d = (w, d) := by
        unfold StoreWriter.ensureSegment
        rw [hname]
        rfl
      rw [hsame, ← closeSegment_length w d]
      exact openSegment_length_le _ now _
    · exact hensure
  cases hclosed : w.closed with
  | true =>
    rw [StoreWriter.append, if_pos hclosed]
    exact Nat.le_succ _
  | false =>
    rcases append_cases hclosed now entry d with ⟨e, happend⟩ | ⟨-, e, happend⟩ | ⟨-, happend⟩
    · rw [happend]
      exact hensure
    · rw [happend]
      exact hrotate
    · rw [happend, writeRecord_length]
      exact hrotate

end LatencyObservatory.Store
