import LatencyObservatory.Model.DefinitionCodec

/-!
# The sync reports in JSON

A sync report has no identity of its own, and every member is read back as it is. Only the revision is not: the
registry records a report without one, and the decoder takes an absent revision but not the zero that is written for it.
-/

namespace LatencyObservatory.Model

open LatencyObservatory.Core JsonValue

theorem find_of_getElem? {members : List (Bytes × JsonValue)} (h : (members.map Prod.fst).Nodup) {name : String}
    {value : JsonValue} (i : Nat) (hmember : members[i]? = some (text name, value)) :
    (object members).find name = some value := by
  show lookup (text name) members = some value
  induction members generalizing i with
  | nil => simp at hmember
  | cons member members ih =>
    rw [List.map_cons, List.nodup_cons] at h
    unfold lookup
    cases i with
    | zero =>
      rw [List.getElem?_cons_zero, Option.some.injEq] at hmember
      rw [hmember, if_pos rfl]
    | succ i =>
      rw [List.getElem?_cons_succ] at hmember
      rw [if_neg, ih h.2 i hmember]
      intro heq
      exact h.1 (heq ▸ List.mem_map_of_mem (f := Prod.fst) (List.mem_of_getElem? hmember))

theorem clockSyncStates_all : NamesAll clockSyncStates :=
  ⟨by decide, by intro value; cases value <;> decide⟩

def clockSyncMembers (sync : ClockSync) : List (Bytes × JsonValue) :=
  [(text "kind", .string (text "clock_sync")),
    (text "domain", .string sync.domain.toHex),
    (text "reference", .string (optionalHex sync.reference)),
    (text "state", .string (nameOf clockSyncStates (text "unknown") sync.state)),
    (text "offset_ns", .number sync.offsetNs.toInt),
    (text "skew_ppb", .number sync.skewPpb.toInt),
    (text "uncertainty_ns", .number sync.uncertaintyNs.toInt),
    (text "valid_for_ns", .number sync.validForNs.toInt),
    (text "observed_at_ns", .number sync.observedAt.ns.toInt),
    (text "observed_at_domain", .string (optionalHex sync.observedAt.domain)),
    (text "reported_by", .string (optionalHex sync.reportedBy)),
    (text "generation", .string (optionalHex sync.generation)),
    (text "epoch", .string (optionalHex sync.epoch)),
    (text "incarnation", .string (optionalHex sync.incarnation)),
    (text "revision", .number sync.revision.value.toNat)]

def clockSyncJson (sync : ClockSync) : JsonValue :=
  .object (clockSyncMembers sync)

theorem clockSyncJson_nesting (sync : ClockSync) : (clockSyncJson sync).nesting ≤ 2 := by
  simp only [clockSyncJson, clockSyncMembers, nesting, membersNesting]
  omega

theorem clockSyncMembers_names (sync : ClockSync) : ((clockSyncMembers sync).map Prod.fst).Nodup := by
  simp only [clockSyncMembers, List.map]
  decide

theorem jsonOptionalRevision_eq {sync : ClockSync} (h : sync.revision.valid = true) :
    jsonOptionalRevision (clockSyncJson sync) = .ok sync.revision := by
  have hfound : (clockSyncJson sync).find "revision" = some (.number sync.revision.value.toNat) :=
    find_of_getElem? (clockSyncMembers_names sync) 14 rfl
  have hread : jsonRevision (clockSyncJson sync) "revision" = .ok sync.revision := jsonRevision_eq h hfound
  unfold jsonOptionalRevision
  rw [hfound]
  exact hread

theorem writeClockSync_eq (w : JsonWriter) (sync : ClockSync) :
    writeClockSync w sync = w.writeValue (clockSyncJson sync) := by
  simp only [writeClockSync, JsonWriter.fieldUint_eq]
  rfl

theorem clockSyncJson_wellFormed (sync : ClockSync) : (clockSyncJson sync).WellFormed :=
  ⟨clockSyncMembers_names sync, trivial, trivial, trivial, trivial, representable_toInt _,
    representable_toInt _, representable_toInt _, representable_toInt _, representable_toInt _, trivial, trivial, trivial,
    trivial, trivial, representable_uint32 _, trivial⟩

theorem decodeClockSync_json {sync : ClockSync} (hrevision : sync.revision.valid = true) :
    decodeClockSync (clockSyncJson sync) = .ok sync := by
  have hfind := @find_of_getElem? _ (clockSyncMembers_names sync)
  have hdomain : jsonId (clockSyncJson sync) "domain" = .ok sync.domain := jsonId_eq (hfind 1 rfl)
  have hreference : jsonOptionalId (clockSyncJson sync) "reference" = .ok sync.reference :=
    jsonOptionalId_eq (hfind 2 rfl)
  have hstate : jsonNamed clockSyncStates "unknown clock sync state" (clockSyncJson sync) "state" = .ok sync.state :=
    jsonNamed_eq clockSyncStates_all (hfind 3 rfl)
  have hoffset : (clockSyncJson sync).requireInt "offset_ns" = .ok sync.offsetNs.toInt := requireInt_eq (hfind 4 rfl)
  have hskew : (clockSyncJson sync).requireInt "skew_ppb" = .ok sync.skewPpb.toInt := requireInt_eq (hfind 5 rfl)
  have huncertainty : (clockSyncJson sync).requireInt "uncertainty_ns" = .ok sync.uncertaintyNs.toInt :=
    requireInt_eq (hfind 6 rfl)
  have hvalidFor : (clockSyncJson sync).requireInt "valid_for_ns" = .ok sync.validForNs.toInt :=
    requireInt_eq (hfind 7 rfl)
  have hobserved : (clockSyncJson sync).requireInt "observed_at_ns" = .ok sync.observedAt.ns.toInt :=
    requireInt_eq (hfind 8 rfl)
  have hobservedDomain : (clockSyncJson sync).requireString "observed_at_domain" =
      .ok (optionalHex sync.observedAt.domain) := requireString_eq (hfind 9 rfl)
  have hparsed := parseDomain_optionalHex sync.observedAt.domain
  have hreportedBy : jsonOptionalId (clockSyncJson sync) "reported_by" = .ok sync.reportedBy :=
    jsonOptionalId_eq (hfind 10 rfl)
  have hgeneration : jsonOptionalId (clockSyncJson sync) "generation" = .ok sync.generation :=
    jsonOptionalId_eq (hfind 11 rfl)
  have hepoch : jsonOptionalId (clockSyncJson sync) "epoch" = .ok sync.epoch := jsonOptionalId_eq (hfind 12 rfl)
  have hincarnation : jsonOptionalId (clockSyncJson sync) "incarnation" = .ok sync.incarnation :=
    jsonOptionalId_eq (hfind 13 rfl)
  have hread := jsonOptionalRevision_eq hrevision
  unfold decodeClockSync
  refine bind_eq_ok_iff.mpr ⟨_, hdomain, ?_⟩
  refine bind_eq_ok_iff.mpr ⟨_, hreference, ?_⟩
  refine bind_eq_ok_iff.mpr ⟨_, hstate, ?_⟩
  refine bind_eq_ok_iff.mpr ⟨_, hoffset, ?_⟩
  refine bind_eq_ok_iff.mpr ⟨_, hskew, ?_⟩
  refine bind_eq_ok_iff.mpr ⟨_, huncertainty, ?_⟩
  refine bind_eq_ok_iff.mpr ⟨_, hvalidFor, ?_⟩
  refine bind_eq_ok_iff.mpr ⟨_, hobserved, ?_⟩
  refine bind_eq_ok_iff.mpr ⟨_, hobservedDomain, ?_⟩
  refine bind_eq_ok_iff.mpr ⟨_, hparsed, ?_⟩
  refine bind_eq_ok_iff.mpr ⟨_, hreportedBy, ?_⟩
  refine bind_eq_ok_iff.mpr ⟨_, hgeneration, ?_⟩
  refine bind_eq_ok_iff.mpr ⟨_, hepoch, ?_⟩
  refine bind_eq_ok_iff.mpr ⟨_, hincarnation, ?_⟩
  refine bind_eq_ok_iff.mpr ⟨_, hread, ?_⟩
  simp only [Int64.ofInt_toInt]
  rfl

theorem clockSync_roundTrips {sync : ClockSync} (hrevision : sync.revision.valid = true) :
    RoundTrips writeClockSync decodeClockSync sync sync :=
  .of_tree (fun w => writeClockSync_eq w sync) (clockSyncJson_wellFormed sync) (clockSyncJson_nesting sync)
    (decodeClockSync_json hrevision)

end LatencyObservatory.Model
