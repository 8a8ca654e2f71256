import LatencyObservatory.Store.Writer

/-!
# What the writer takes

An append succeeds exactly if the writer is open and the record respects the payload limit, fits a segment
of its own, and keeps the store within its size. The decision reads the writer's counters only.
-/

namespace LatencyObservatory.Store
open LatencyObservatory.Core LatencyObservatory.Lib

namespace StoreWriter

/-- The open segment makes way for a record of this size. -/
def turns (w : StoreWriter) (recordBytes : Nat) : Bool :=
  w.file.isSome && w.rotates recordBytes

/-- What the store holds once room is made for a record: a rotation adds the footer of the old segment. -/
def bytesBefore (w : StoreWriter) (recordBytes : Nat) : Nat :=
  if w.turns recordBytes then w.totalBytes + segmentFooterBytes else w.totalBytes

/-- The record fits the format and a segment, whatever the store already holds. -/
def fits (limits : Limits) (length : Nat) : Bool :=
  length ≤ maxRecordPayloadBytes && recordHeaderBytes + length + segmentFooterBytes ≤ limits.maxSegmentBytes

/-- The writer takes a payload of this length. -/
def takes (w : StoreWriter) (length : Nat) : Bool :=
  !w.closed && fits w.config.limits length &&
    w.bytesBefore (recordHeaderBytes + length) + (recordHeaderBytes + length) < 2 ^ 64 &&
    w.bytesBefore (recordHeaderBytes + length) + (recordHeaderBytes + length) ≤ w.config.limits.maxStoreBytes

theorem ensureSegment_config (w : StoreWriter) (now : Nanos) (d : Directory) :
    (w.ensureSegment now d).1.config = w.config := by
  unfold ensureSegment
  split_ifs <;> rfl

/-- A segment that was just opened has no records, so it is not rotated. -/
theorem ensureSegment_rotates (w : StoreWriter) (now : Nanos) (recordBytes : Nat) (d : Directory) :
    (w.ensureSegment now d).1.rotates recordBytes = w.turns recordBytes := by
  unfold ensureSegment turns
  cases hfile : w.file with
  | none => simp [openSegment, rotates]
  | some name => simp

theorem rotate_totalBytes (w : StoreWriter) (now : Nanos) (recordBytes : Nat) (d : Directory) :
    ((w.ensureSegment now d).1.rotate now recordBytes (w.ensureSegment now d).2).1.totalBytes =
      w.bytesBefore recordBytes ∧
    ((w.ensureSegment now d).1.rotate now recordBytes (w.ensureSegment now d).2).1.config = w.config := by
  have hrotates := w.ensureSegment_rotates now recordBytes d
  unfold rotate bytesBefore
  rw [hrotates]
  cases hturns : w.turns recordBytes with
  | false =>
    rw [if_neg Bool.false_ne_true, if_neg Bool.false_ne_true]
    unfold ensureSegment
    split_ifs <;> exact ⟨rfl, rfl⟩
  | true =>
    unfold turns at hturns
    obtain ⟨name, hname⟩ := Option.isSome_iff_exists.mp (Bool.and_eq_true_iff.mp hturns).1
    have hensure : w.ensureSegment now d = (w, d) := by
      unfold ensureSegment
      rw [hname]
      rfl
    rw [hensure, if_pos rfl, if_pos rfl]
    unfold closeSegment
    rw [hname]
    exact ⟨rfl, rfl⟩

/-- **An append succeeds exactly if the writer takes the payload.** -/
theorem append_ok_iff (w : StoreWriter) (now : Nanos) (entry : Entry) (d : Directory) :
    (w.append now entry d).1 = .ok () ↔ w.takes entry.2.length = true := by
  obtain ⟨htotal, hconfig⟩ := w.rotate_totalBytes now (recordHeaderBytes + entry.2.length) d
  have hensured := w.ensureSegment_config now d
  unfold append takes fits
  by_cases hclosed : w.closed = true
  · simp [hclosed]
  · simp only [hclosed, Bool.false_eq_true, if_false, Bool.not_false, Bool.true_and, hensured]
    by_cases hlong : entry.2.length > maxRecordPayloadBytes
    · simp [hlong]
    · by_cases hsegment : recordHeaderBytes + entry.2.length + segmentFooterBytes > w.config.limits.maxSegmentBytes
      · simp [hlong, hsegment]
      · simp only [if_neg hlong, if_neg hsegment, htotal, hconfig, checkedAddU64]
        have hfits : (decide (entry.2.length ≤ maxRecordPayloadBytes) &&
            decide (recordHeaderBytes + entry.2.length + segmentFooterBytes ≤ w.config.limits.maxSegmentBytes)) =
              true := by
          simp only [Bool.and_eq_true, decide_eq_true_eq]
          omega
        rw [hfits, Bool.true_and]
        split_ifs with hoverflow
        · simp only
          split_ifs with hfull
          · simp [hfull]
          · simp only [true_iff, Bool.and_eq_true, decide_eq_true_eq]
            omega
        · simp only [false_iff, Bool.and_eq_true, decide_eq_true_eq, not_and]
          intro hsmall
          exact absurd hsmall hoverflow

/-- The writer after a successful or failed append: the directory plays no part. -/
def appended (w : StoreWriter) (now : Nanos) (entry : Entry) : StoreWriter :=
  (w.append now entry .empty).2.1

theorem append_writer (w : StoreWriter) (now : Nanos) (entry : Entry) (d : Directory) :
    (w.append now entry d).2.1 = w.appended now entry := by
  have hopen : ∀ (w : StoreWriter) (d d' : Directory), (w.openSegment now d).1 = (w.openSegment now d').1 :=
    fun _ _ _ => rfl
  have hclose : ∀ (w : StoreWriter) (d d' : Directory), (w.closeSegment d).1 = (w.closeSegment d').1 := by
    intro w d d'
    unfold closeSegment
    cases w.file <;> rfl
  have hensure : ∀ (w : StoreWriter) (d d' : Directory), (w.ensureSegment now d).1 = (w.ensureSegment now d').1 := by
    intro w d d'
    unfold ensureSegment
    split_ifs <;> rfl
  have hrotate : ∀ (w : StoreWriter) (n : Nat) (d d' : Directory), (w.rotate now n d).1 = (w.rotate now n d').1 := by
    intro w n d d'
    unfold rotate
    split_ifs
    · simp only
      rw [hclose w d d']
      exact hopen _ _ _
    · rfl
  have hwrite : ∀ (w : StoreWriter) (d d' : Directory), (w.writeRecord entry d).1 = (w.writeRecord entry d').1 := by
    intro w d d'
    unfold writeRecord
    cases w.file <;> rfl
  unfold appended append
  by_cases hclosed : w.closed = true
  · simp [hclosed]
  · simp only [hclosed, Bool.false_eq_true, if_false, hensure w d .empty]
    split_ifs
    · rfl
    · rfl
    · rw [hrotate _ _ (w.ensureSegment now d).2 (w.ensureSegment now .empty).2]
      split
      · split_ifs
        · rfl
        · exact hwrite _ _ _
      · rfl

/-- The writer takes a whole list of records, one after the other. -/
def takesAll (now : Nanos) : StoreWriter → List Entry → Bool
  | _, [] => true
  | w, entry :: rest => w.takes entry.2.length && takesAll now (w.appended now entry) rest

/-- The writer after a list of appends. -/
def appendedAll (w : StoreWriter) (now : Nanos) (entries : List Entry) : StoreWriter :=
  entries.foldl (fun w entry => w.appended now entry) w

theorem takesAll_append (now : Nanos) (w : StoreWriter) (first second : List Entry) :
    takesAll now w (first ++ second) = (takesAll now w first && takesAll now (w.appendedAll now first) second) := by
  induction first generalizing w with
  | nil => rfl
  | cons entry rest ih =>
    rw [List.cons_append, takesAll, takesAll, ih, Bool.and_assoc]
    rfl

end StoreWriter

end LatencyObservatory.Store
