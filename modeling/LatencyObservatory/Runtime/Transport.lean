import LatencyObservatory.Core.Error
import Mathlib.Data.List.TakeWhile
import Mathlib.Tactic.Common

/-!
# Line framing of a connection

A connection is what `recv` returns, chunk by chunk, until the peer closes it. `read_line` is started anew for
every line and keeps nothing between two of them: the bytes that share a chunk with a newline and come after it are
lost. The request lines of a stream do not depend on chunks, so the two differ for some cutting of every stream
that goes on after its first line, and `framing_independent_iff` says which streams are left.
-/

namespace LatencyObservatory.Runtime

open LatencyObservatory.Core

/-! ### The connection loop -/

def newline : UInt8 := 10

/-- The size of the buffer given to `recv`. -/
def recvBufferBytes : Nat := 4096

/-- How the scan of one chunk ends. -/
inductive Scanned where
  | line (line : Bytes)
  | tooLong (size : Nat)
  | more (line : Bytes)
deriving DecidableEq, Repr

/-- The inner loop of `read_line`. -/
def scanChunk (maxBytes : Nat) (line : Bytes) : Bytes → Scanned
  | [] => .more line
  | byte :: rest =>
    if byte = newline then .line line
    else if line.length + 1 > maxBytes then .tooLong (line.length + 1)
    else scanChunk maxBytes (line ++ [byte]) rest

/-- `read_line` with the line read so far: its result and the chunks that are left. -/
def readLine (maxBytes : Nat) (line : Bytes) : List Bytes → Except Error Bytes × List Bytes
  | [] =>
    (if line = [] then .error ⟨.ioError, "the peer closed the connection without a request", []⟩ else .ok line, [])
  | chunk :: rest =>
    match scanChunk maxBytes line chunk with
    | .line line => (.ok line, rest)
    | .tooLong size =>
      (.error ⟨.capacityExceeded, "the request line exceeds the configured limit", decimal size⟩, rest)
    | .more line => readLine maxBytes line rest

/-- The server stops after a line that mentions the operation. -/
def stopsServer (line : Bytes) : Bool :=
  decide (text "\"shutdown\"" <:+: line)

/-- The connection loop of `LineServer::run`: the lines it hands to `Service::execute`. -/
def connectionLines (maxBytes : Nat) : Nat → List Bytes → List Bytes
  | 0, _ => []
  | fuel + 1, chunks =>
    match readLine maxBytes [] chunks with
    | (.error _, _) => []
    | (.ok line, rest) => line :: (if stopsServer line then [] else connectionLines maxBytes fuel rest)

structure TransportConfig where
  maxLineBytes : Nat := 1024 * 1024
  /-- `LineServer::start` refuses a limit of zero. -/
  nonzero : 0 < maxLineBytes := by decide

/-- The lines of one connection: every read but the last uses up a chunk. -/
def TransportConfig.handed (config : TransportConfig) (chunks : List Bytes) : List Bytes :=
  connectionLines config.maxLineBytes (chunks.length + 1) chunks

/-! ### The lines of a stream -/

/-- The lines that end with a newline, and what comes after the last one if there is anything. -/
def requestLines (stream : Bytes) : List Bytes :=
  (stream.splitOn newline).dropLast ++ (stream.splitOn newline).getLast?.toList.filter (· ≠ [])

/-- The lines up to the first one that is too long or stops the server. -/
def upTo (maxBytes : Nat) : List Bytes → List Bytes
  | [] => []
  | line :: rest =>
    if line.length > maxBytes then []
    else line :: (if stopsServer line then [] else upTo maxBytes rest)

def firstLine (stream : Bytes) : Bytes := stream.takeWhile (· ≠ newline)

/-- What follows the newline of the first line. -/
def afterFirst (stream : Bytes) : Bytes := (stream.dropWhile (· ≠ newline)).drop 1

/-- What `recv` can return for a stream. -/
structure Cut (stream : Bytes) (chunks : List Bytes) : Prop where
  whole : chunks.flatten = stream
  nonempty : ∀ chunk ∈ chunks, chunk ≠ []
  bounded : ∀ chunk ∈ chunks, chunk.length ≤ recvBufferBytes

/-! ### The loop as one recursion -/

/-- The connection loop, chunk by chunk, with the line read so far. -/
def serve (maxBytes : Nat) (line : Bytes) : List Bytes → List Bytes
  | [] => if line = [] then [] else [line]
  | chunk :: rest =>
    match scanChunk maxBytes line chunk with
    | .line line => line :: (if stopsServer line then [] else serve maxBytes [] rest)
    | .tooLong _ => []
    | .more line => serve maxBytes line rest

section Serve

variable {maxBytes : Nat} {line read : Bytes} {chunk : Bytes} {chunks rest : List Bytes}

theorem serve_of_line (h : scanChunk maxBytes line chunk = .line read) :
    serve maxBytes line (chunk :: rest) = read :: (if stopsServer read then [] else serve maxBytes [] rest) := by
  rw [serve, h]

theorem serve_of_tooLong {size : Nat} (h : scanChunk maxBytes line chunk = .tooLong size) :
    serve maxBytes line (chunk :: rest) = [] := by
  rw [serve, h]

theorem serve_of_more (h : scanChunk maxBytes line chunk = .more read) :
    serve maxBytes line (chunk :: rest) = serve maxBytes read rest := by
  rw [serve, h]

theorem serve_of_readLine_error {e : Error} (h : readLine maxBytes line chunks = (.error e, rest)) :
    serve maxBytes line chunks = [] := by
  induction chunks generalizing line with
  | nil =>
    unfold readLine at h
    split_ifs at h with hempty
    · rw [serve, if_pos hempty]
    · cases h
  | cons chunk chunks ih =>
    unfold readLine at h
    cases hscan : scanChunk maxBytes line chunk with
    | line read =>
      rw [hscan] at h
      cases h
    | tooLong size => exact serve_of_tooLong hscan
    | more read =>
      rw [hscan] at h
      rw [serve_of_more hscan]
      exact ih h

theorem serve_of_readLine_ok (h : readLine maxBytes line chunks = (.ok read, rest)) :
    serve maxBytes line chunks = read :: (if stopsServer read then [] else serve maxBytes [] rest) ∧
      (rest.length < chunks.length ∨ line ≠ [] ∧ rest = []) := by
  induction chunks generalizing line with
  | nil =>
    unfold readLine at h
    split_ifs at h with hempty
    · cases h
    · cases h
      have hend : serve maxBytes [] [] = [] := rfl
      rw [serve, if_neg hempty, hend, ite_self]
      exact ⟨rfl, Or.inr ⟨hempty, rfl⟩⟩
  | cons chunk chunks ih =>
    unfold readLine at h
    cases hscan : scanChunk maxBytes line chunk with
    | line found =>
      rw [hscan] at h
      cases h
      exact ⟨serve_of_line hscan, Or.inl (Nat.lt_succ_self _)⟩
    | tooLong size =>
      rw [hscan] at h
      cases h
    | more found =>
      rw [hscan] at h
      obtain ⟨heq, hrest⟩ := ih h
      rw [serve_of_more hscan]
      refine ⟨heq, Or.inl ?_⟩
      rcases hrest with hlt | ⟨-, rfl⟩
      · exact Nat.lt_succ_of_lt hlt
      · exact Nat.succ_pos _

end Serve

theorem connectionLines_eq_serve {maxBytes fuel : Nat} {chunks : List Bytes} (hfuel : chunks.length < fuel) :
    connectionLines maxBytes fuel chunks = serve maxBytes [] chunks := by
  induction fuel generalizing chunks with
  | zero => omega
  | succ fuel ih =>
    cases hread : readLine maxBytes [] chunks with
    | mk result rest =>
      cases result with
      | error e =>
        rw [connectionLines, hread]
        exact (serve_of_readLine_error hread).symm
      | ok line =>
        obtain ⟨heq, hrest⟩ := serve_of_readLine_ok hread
        rcases hrest with hlt | ⟨hne, -⟩
        · have hnext : connectionLines maxBytes fuel rest = serve maxBytes [] rest := ih (by omega)
          rw [connectionLines, hread, heq, ← hnext]
        · exact absurd rfl hne

theorem TransportConfig.handed_eq_serve (config : TransportConfig) (chunks : List Bytes) :
    config.handed chunks = serve config.maxLineBytes [] chunks :=
  connectionLines_eq_serve (Nat.lt_succ_self _)

/-! ### The lines of a stream, one by one -/

section Lines

variable {maxBytes : Nat} {line before stream : Bytes}

theorem requestLines_of_newline (h : newline ∉ before) (stream : Bytes) :
    requestLines (before ++ newline :: stream) = before :: requestLines stream := by
  have hsplit : (before ++ newline :: stream).splitOn newline = before :: stream.splitOn newline := by
    exact List.splitOn_append_cons_self_of_not_mem h stream
  have hne := List.splitOn_ne_nil newline stream
  unfold requestLines
  rw [hsplit, List.dropLast_cons_of_ne_nil hne, List.getLast?_cons_of_ne_nil hne, List.cons_append]

theorem requestLines_of_not_mem (h : newline ∉ stream) :
    requestLines stream = if stream = [] then [] else [stream] := by
  unfold requestLines
  rw [List.splitOn_eq_singleton h]
  split_ifs with hempty
  · simp [hempty]
  · simp [hempty]

theorem newline_cases (stream : Bytes) :
    newline ∉ stream ∨ ∃ first rest, newline ∉ first ∧ stream = first ++ newline :: rest := by
  by_cases h : newline ∈ stream
  · obtain ⟨first, rest, heq, hfirst⟩ := List.eq_append_cons_of_mem h
    exact Or.inr ⟨first, rest, hfirst, heq⟩
  · exact Or.inl h

theorem ne_newline_of_mem (h : newline ∉ before) : ∀ byte ∈ before, decide (byte ≠ newline) = true := by
  intro byte hbyte
  rw [decide_eq_true_eq]
  rintro rfl
  exact h hbyte

theorem firstLine_of_not_mem (h : newline ∉ stream) : firstLine stream = stream :=
  List.takeWhile_eq_self_iff.mpr (ne_newline_of_mem h)

theorem firstLine_of_newline (h : newline ∉ before) (rest : Bytes) :
    firstLine (before ++ newline :: rest) = before := by
  unfold firstLine
  rw [List.takeWhile_append_of_pos (ne_newline_of_mem h), List.takeWhile_cons_of_neg (by decide), List.append_nil]

theorem afterFirst_of_not_mem (h : newline ∉ stream) : afterFirst stream = [] := by
  unfold afterFirst
  rw [List.dropWhile_eq_nil_iff.mpr (ne_newline_of_mem h), List.drop_nil]

theorem afterFirst_of_newline (h : newline ∉ before) (rest : Bytes) :
    afterFirst (before ++ newline :: rest) = rest := by
  unfold afterFirst
  rw [List.dropWhile_append_of_pos (ne_newline_of_mem h), List.dropWhile_cons_of_neg (by decide)]
  rfl

theorem newline_not_mem_firstLine (stream : Bytes) : newline ∉ firstLine stream := by
  intro hmem
  have hne := List.mem_takeWhile_imp hmem
  rw [decide_eq_true_eq] at hne
  exact hne rfl

theorem firstLine_append_dropWhile (stream : Bytes) :
    firstLine stream ++ stream.dropWhile (· ≠ newline) = stream :=
  List.takeWhile_append_dropWhile

theorem firstLine_drop {lost : Nat} (h : lost ≤ (firstLine stream).length) :
    firstLine (stream.drop lost) = (firstLine stream).drop lost := by
  rcases newline_cases stream with hnone | ⟨first, rest, hfirst, rfl⟩
  · rw [firstLine_of_not_mem hnone, firstLine_of_not_mem (fun hmem => hnone (List.mem_of_mem_drop hmem))]
  · rw [firstLine_of_newline hfirst] at h ⊢
    rw [List.drop_append_of_le_length h, firstLine_of_newline (fun hmem => hfirst (List.mem_of_mem_drop hmem))]

theorem upTo_of_long (h : newline ∉ before) (hlong : maxBytes < before.length) (stream : Bytes) :
    upTo maxBytes (requestLines (before ++ stream)) = [] := by
  rcases newline_cases stream with hnone | ⟨first, rest, hfirst, rfl⟩
  · have hwhole : newline ∉ before ++ stream := by
      rw [List.mem_append]
      rintro (hmem | hmem)
      · exact h hmem
      · exact hnone hmem
    rw [requestLines_of_not_mem hwhole]
    split_ifs
    · rfl
    · have hlength : maxBytes < (before ++ stream).length := by
        rw [List.length_append]
        omega
      rw [upTo, if_pos hlength]
  · have hwhole : newline ∉ before ++ first := by
      rw [List.mem_append]
      rintro (hmem | hmem)
      · exact h hmem
      · exact hfirst hmem
    have hlength : maxBytes < (before ++ first).length := by
      rw [List.length_append]
      omega
    rw [← List.append_assoc, requestLines_of_newline hwhole, upTo, if_pos hlength]

theorem head_upTo (maxBytes : Nat) (stream : Bytes) :
    (upTo maxBytes (requestLines stream)).head? =
      if stream = [] ∨ maxBytes < (firstLine stream).length then none else some (firstLine stream) := by
  rcases newline_cases stream with hnone | ⟨first, rest, hfirst, rfl⟩
  · rw [requestLines_of_not_mem hnone, firstLine_of_not_mem hnone]
    by_cases hempty : stream = []
    · rw [if_pos hempty, if_pos (Or.inl hempty)]
      rfl
    · rw [if_neg hempty, upTo]
      by_cases hlong : maxBytes < stream.length
      · rw [if_pos hlong, if_pos (Or.inr hlong)]
        rfl
      · have hkept : ¬(stream = [] ∨ maxBytes < stream.length) := not_or.mpr ⟨hempty, hlong⟩
        rw [if_neg hlong, if_neg hkept]
        rfl
  · rw [requestLines_of_newline hfirst, firstLine_of_newline hfirst, upTo]
    by_cases hlong : maxBytes < first.length
    · rw [if_pos hlong, if_pos (Or.inr hlong)]
      rfl
    · have hkept : ¬(first ++ newline :: rest = [] ∨ maxBytes < first.length) :=
        not_or.mpr ⟨List.append_ne_nil_of_right_ne_nil _ (List.cons_ne_nil _ _), hlong⟩
      rw [if_neg hlong, if_neg hkept]
      rfl

end Lines

/-! ### One chunk -/

section Chunk

variable {maxBytes : Nat} {line before : Bytes}

theorem scanChunk_of_long (hline : line.length ≤ maxBytes) (h : newline ∉ before)
    (hlong : maxBytes < (line ++ before).length) (rest : Bytes) :
    ∃ size, scanChunk maxBytes line (before ++ rest) = .tooLong size := by
  induction before generalizing line with
  | nil =>
    rw [List.append_nil] at hlong
    omega
  | cons byte before ih =>
    rw [List.mem_cons, not_or] at h
    rw [List.cons_append, scanChunk, if_neg (Ne.symm h.1)]
    by_cases hsize : line.length + 1 > maxBytes
    · exact ⟨_, if_pos hsize⟩
    · rw [if_neg hsize]
      apply ih _ h.2
      · rw [List.append_assoc]
        exact hlong
      · rw [List.length_append, List.length_singleton]
        omega

theorem scanChunk_append (h : newline ∉ before) (hshort : (line ++ before).length ≤ maxBytes) (rest : Bytes) :
    scanChunk maxBytes line (before ++ rest) = scanChunk maxBytes (line ++ before) rest := by
  induction before generalizing line with
  | nil => rw [List.append_nil, List.nil_append]
  | cons byte before ih =>
    rw [List.mem_cons, not_or] at h
    rw [List.append_cons] at hshort
    have hsize : ¬line.length + 1 > maxBytes := by
      simp only [List.length_append, List.length_singleton] at hshort
      omega
    rw [List.cons_append, scanChunk, if_neg (Ne.symm h.1), if_neg hsize, ih h.2 hshort, List.append_cons line byte before]

theorem scanChunk_of_not_mem (h : newline ∉ before) (hshort : (line ++ before).length ≤ maxBytes) :
    scanChunk maxBytes line before = .more (line ++ before) := by
  have hscan := scanChunk_append h hshort []
  rw [List.append_nil] at hscan
  rw [hscan, scanChunk]

theorem scanChunk_of_newline (h : newline ∉ before) (hshort : (line ++ before).length ≤ maxBytes) (rest : Bytes) :
    scanChunk maxBytes line (before ++ newline :: rest) = .line (line ++ before) := by
  rw [scanChunk_append h hshort, scanChunk, if_pos rfl]

end Chunk

/-! ### Whole connections -/

section Connection

variable {maxBytes : Nat} {line before : Bytes} {chunks : List Bytes}

theorem serve_of_aligned (hline : newline ∉ line) (hshort : line.length ≤ maxBytes)
    (h : ∀ chunk ∈ chunks, newline ∉ chunk.dropLast) :
    serve maxBytes line chunks = upTo maxBytes (requestLines (line ++ chunks.flatten)) := by
  induction chunks generalizing line with
  | nil =>
    rw [List.flatten_nil, List.append_nil, requestLines_of_not_mem hline, serve]
    by_cases hempty : line = []
    · rw [if_pos hempty]
      rfl
    · rw [if_neg hempty, upTo, if_neg (by omega)]
      exact congrArg (line :: ·) (ite_self _).symm
  | cons chunk chunks ih =>
    obtain ⟨hchunk, hrest⟩ := List.forall_mem_cons.mp h
    have hjoin : ∀ {piece : Bytes}, newline ∉ piece → newline ∉ line ++ piece := by
      intro piece hpiece
      rw [List.mem_append, not_or]
      exact ⟨hline, hpiece⟩
    rw [List.flatten_cons]
    rcases newline_cases chunk with hnone | ⟨first, rest, hfirst, rfl⟩
    · rw [← List.append_assoc]
      by_cases hlong : maxBytes < (line ++ chunk).length
      · obtain ⟨size, hscan⟩ := scanChunk_of_long hshort hnone hlong []
        rw [List.append_nil] at hscan
        rw [serve_of_tooLong hscan, upTo_of_long (hjoin hnone) hlong]
      · rw [serve_of_more (scanChunk_of_not_mem hnone (by omega))]
        exact ih (hjoin hnone) (by omega) hrest
    · have hend : rest = [] := by
        by_contra hne
        apply hchunk
        rw [List.dropLast_append_of_ne_nil (List.cons_ne_nil _ _), List.dropLast_cons_of_ne_nil hne]
        exact List.mem_append_right _ List.mem_cons_self
      subst hend
      have hlines := requestLines_of_newline (hjoin hfirst) chunks.flatten
      rw [List.append_assoc] at hlines
      rw [List.append_assoc, List.singleton_append, hlines, upTo]
      by_cases hlong : maxBytes < (line ++ first).length
      · obtain ⟨size, hscan⟩ := scanChunk_of_long hshort hfirst hlong [newline]
        rw [serve_of_tooLong hscan, if_pos hlong]
      · rw [serve_of_line (scanChunk_of_newline hfirst (by omega) []), if_neg hlong,
          ih List.not_mem_nil (Nat.zero_le _) hrest, List.nil_append]

theorem serve_of_long (hline : line.length ≤ maxBytes) (h : newline ∉ before)
    (hlong : maxBytes < (line ++ before).length) {stream : Bytes} (hflat : chunks.flatten = before ++ stream) :
    serve maxBytes line chunks = [] := by
  induction chunks generalizing line before with
  | nil =>
    have hempty : before = [] := (List.append_eq_nil_iff.mp hflat.symm).1
    rw [hempty, List.append_nil] at hlong
    omega
  | cons chunk chunks ih =>
    rw [List.flatten_cons, List.append_eq_append_iff] at hflat
    rcases hflat with ⟨others, rfl, hothers⟩ | ⟨others, rfl, -⟩
    · -- The chunk is within the long piece.
      rw [List.mem_append, not_or] at h
      by_cases hchunk : maxBytes < (line ++ chunk).length
      · obtain ⟨size, hscan⟩ := scanChunk_of_long hline h.1 hchunk []
        rw [List.append_nil] at hscan
        exact serve_of_tooLong hscan
      · rw [serve_of_more (scanChunk_of_not_mem h.1 (by omega))]
        apply ih (by omega) h.2 _ hothers
        rw [List.append_assoc]
        exact hlong
    · obtain ⟨size, hscan⟩ := scanChunk_of_long hline h hlong others
      exact serve_of_tooLong hscan

theorem serve_append (h : newline ∉ chunks.flatten) (hshort : (line ++ chunks.flatten).length ≤ maxBytes)
    (rest : List Bytes) : serve maxBytes line (chunks ++ rest) = serve maxBytes (line ++ chunks.flatten) rest := by
  induction chunks generalizing line with
  | nil => rw [List.flatten_nil, List.append_nil, List.nil_append]
  | cons chunk chunks ih =>
    rw [List.flatten_cons, List.mem_append, not_or] at h
    rw [List.flatten_cons, ← List.append_assoc] at hshort ⊢
    have hchunk : (line ++ chunk).length ≤ maxBytes := by
      rw [List.length_append] at hshort
      omega
    rw [List.cons_append, serve_of_more (scanChunk_of_not_mem h.1 hchunk)]
    exact ih h.2 hshort

theorem serve_of_newline (h : newline ∉ before) (hshort : (line ++ before).length ≤ maxBytes) {stream : Bytes}
    (hflat : chunks.flatten = before ++ newline :: stream) (hbound : ∀ chunk ∈ chunks, chunk.length ≤ recvBufferBytes) :
    ∃ lost rest, lost.length < recvBufferBytes ∧ stream = lost ++ rest.flatten ∧
      serve maxBytes line chunks =
        (line ++ before) :: (if stopsServer (line ++ before) then [] else serve maxBytes [] rest) := by
  induction chunks generalizing line before with
  | nil => exact absurd hflat.symm (List.append_ne_nil_of_right_ne_nil _ (List.cons_ne_nil _ _))
  | cons chunk chunks ih =>
    obtain ⟨hchunk, hrest⟩ := List.forall_mem_cons.mp hbound
    rw [List.flatten_cons, List.append_eq_append_iff] at hflat
    rcases hflat with ⟨others, rfl, hothers⟩ | ⟨others, rfl, hothers⟩
    · rw [List.mem_append, not_or] at h
      rw [← List.append_assoc] at hshort ⊢
      have hmore : (line ++ chunk).length ≤ maxBytes := by
        rw [List.length_append] at hshort
        omega
      rw [serve_of_more (scanChunk_of_not_mem h.1 hmore)]
      exact ih h.2 hshort hothers hrest
    · cases others with
      | nil =>
        rw [List.append_nil] at hchunk ⊢
        have hmore := scanChunk_of_not_mem h hshort
        rw [serve_of_more hmore]
        obtain ⟨lost, rest, hlost, hstream, hserve⟩ := ih List.not_mem_nil
          (by rw [List.append_nil]; exact hshort) hothers.symm hrest
        rw [List.append_nil] at hserve
        exact ⟨lost, rest, hlost, hstream, hserve⟩
      | cons byte lost =>
        obtain ⟨rfl, hstream⟩ := List.cons.inj hothers
        refine ⟨lost, chunks, ?_, hstream, ?_⟩
        · rw [List.length_append, List.length_cons] at hchunk
          omega
        · exact serve_of_line (scanChunk_of_newline h hshort lost)

end Connection

/-! ### Streams and their cuttings -/

section Framing

variable {maxBytes : Nat} {stream first rest : Bytes} {chunks : List Bytes}

theorem serve_of_not_mem (h : newline ∉ chunks.flatten) :
    serve maxBytes [] chunks = upTo maxBytes (requestLines chunks.flatten) := by
  apply serve_of_aligned List.not_mem_nil (Nat.zero_le _)
  intro chunk hchunk hmem
  exact h (List.mem_flatten_of_mem hchunk (List.mem_of_mem_dropLast hmem))

theorem upTo_of_firstLine (h : maxBytes < (firstLine stream).length) :
    upTo maxBytes (requestLines stream) = [] := by
  have hlines := upTo_of_long (newline_not_mem_firstLine stream) h (stream.dropWhile (· ≠ newline))
  rwa [firstLine_append_dropWhile] at hlines

theorem serve_of_lost {lost : Bytes} (hlost : lost.length < recvBufferBytes)
    (h : maxBytes + recvBufferBytes ≤ (firstLine (lost ++ chunks.flatten)).length) :
    serve maxBytes [] chunks = [] := by
  have hdrop := firstLine_drop (Nat.le_trans (Nat.le_of_lt hlost) (Nat.le_trans (Nat.le_add_left _ maxBytes) h))
  rw [List.drop_left] at hdrop
  have hlong : maxBytes < ([] ++ firstLine chunks.flatten).length := by
    rw [List.nil_append, hdrop, List.length_drop]
    omega
  exact serve_of_long (Nat.zero_le _) (newline_not_mem_firstLine _) hlong (firstLine_append_dropWhile _).symm

/-- One chunk a byte, but for the newline of the first line, which takes `lost` bytes more with it. -/
def lossyCut (first rest : Bytes) (lost : Nat) : List Bytes :=
  first.map ([·]) ++ (newline :: rest.take lost) :: (rest.drop lost).map ([·])

theorem flatten_singletons (bytes : Bytes) : (bytes.map ([·])).flatten = bytes := by
  induction bytes with
  | nil => rfl
  | cons byte bytes ih => rw [List.map_cons, List.flatten_cons, ih, List.singleton_append]

theorem lossyCut_cut {lost : Nat} (hlost : lost < recvBufferBytes) :
    Cut (first ++ newline :: rest) (lossyCut first rest lost) where
  whole := by
    unfold lossyCut
    rw [List.flatten_append, List.flatten_cons, flatten_singletons, flatten_singletons, List.cons_append,
      List.take_append_drop]
  nonempty := by
    intro chunk hchunk
    unfold lossyCut at hchunk
    rcases List.mem_append.mp hchunk with hmem | hmem
    · obtain ⟨byte, -, rfl⟩ := List.mem_map.mp hmem
      exact List.cons_ne_nil _ _
    · rcases List.mem_cons.mp hmem with rfl | hmem
      · exact List.cons_ne_nil _ _
      · obtain ⟨byte, -, rfl⟩ := List.mem_map.mp hmem
        exact List.cons_ne_nil _ _
  bounded := by
    intro chunk hchunk
    have hone : 1 ≤ recvBufferBytes := by decide
    unfold lossyCut at hchunk
    rcases List.mem_append.mp hchunk with hmem | hmem
    · obtain ⟨byte, -, rfl⟩ := List.mem_map.mp hmem
      exact hone
    · rcases List.mem_cons.mp hmem with rfl | hmem
      · rw [List.length_cons, List.length_take]
        omega
      · obtain ⟨byte, -, rfl⟩ := List.mem_map.mp hmem
        exact hone

theorem serve_lossyCut (h : newline ∉ first) (hshort : first.length ≤ maxBytes)
    (hgoes : stopsServer first = false) (lost : Nat) :
    serve maxBytes [] (lossyCut first rest lost) = first :: upTo maxBytes (requestLines (rest.drop lost)) := by
  have haligned : ∀ chunk ∈ (rest.drop lost).map ([·]), newline ∉ chunk.dropLast := by
    intro chunk hchunk
    obtain ⟨byte, -, rfl⟩ := List.mem_map.mp hchunk
    exact List.not_mem_nil
  have hlast := serve_of_aligned List.not_mem_nil (Nat.zero_le maxBytes) haligned
  rw [flatten_singletons, List.nil_append] at hlast
  unfold lossyCut
  rw [serve_append (by rw [flatten_singletons]; exact h) (by rw [flatten_singletons]; exact hshort),
    flatten_singletons, List.nil_append]
  have hscan := @scanChunk_of_newline maxBytes first [] List.not_mem_nil
    (by rw [List.append_nil]; exact hshort) (rest.take lost)
  rw [List.append_nil, List.nil_append] at hscan
  rw [serve_of_line hscan, hgoes, if_neg Bool.false_ne_true, hlast]

/-- Losing bytes of a stream whose first line is not hopelessly long can be seen in its lines. -/
theorem exists_lossy (hmax : 0 < maxBytes) (hne : stream ≠ [])
    (hreach : (firstLine stream).length < maxBytes + recvBufferBytes) :
    ∃ lost, lost < recvBufferBytes ∧
      upTo maxBytes (requestLines (stream.drop lost)) ≠ upTo maxBytes (requestLines stream) := by
  by_cases hlong : maxBytes < (firstLine stream).length
  · -- Enough of the line is lost for the rest of it to be accepted.
    refine ⟨(firstLine stream).length - maxBytes, by omega, ?_⟩
    intro heq
    have hhead := congrArg List.head? heq
    rw [head_upTo, head_upTo, if_pos (Or.inr hlong), firstLine_drop (by omega)] at hhead
    have hlength : ((firstLine stream).drop ((firstLine stream).length - maxBytes)).length = maxBytes := by
      rw [List.length_drop]
      omega
    rw [if_neg _] at hhead
    · cases hhead
    · rw [not_or]
      refine ⟨?_, by omega⟩
      intro hempty
      have hall : stream.length ≤ (firstLine stream).length - maxBytes := List.drop_eq_nil_iff.mp hempty
      have hsub : (firstLine stream).length ≤ stream.length := (List.takeWhile_sublist _).length_le
      omega
  · refine ⟨1, by decide, ?_⟩
    intro heq
    cases stream with
    | nil => exact hne rfl
    | cons byte stream =>
      rw [List.drop_one, List.tail_cons] at heq
      by_cases hbyte : byte = newline
      · -- An empty line is lost.
        subst hbyte
        have hlines := requestLines_of_newline List.not_mem_nil stream
        rw [List.nil_append] at hlines
        have hempty : ¬([] : Bytes).length > maxBytes := Nat.not_lt_zero maxBytes
        rw [hlines, upTo, if_neg hempty, if_neg (by decide)] at heq
        exact absurd (congrArg List.length heq) (by rw [List.length_cons]; omega)
      · have hfirst : firstLine (byte :: stream) = byte :: firstLine stream :=
          List.takeWhile_cons_of_pos (decide_eq_true hbyte)
        have hhead := congrArg List.head? heq
        rw [head_upTo, head_upTo, if_neg (not_or.mpr ⟨hne, hlong⟩), hfirst] at hhead
        split_ifs at hhead
        exact absurd (congrArg List.length (Option.some.inj hhead)) (by rw [List.length_cons]; omega)

/-- A stream is read alike however it is cut exactly when nothing follows its first line, when the connection ends
with that line anyway, or when the line after it is refused even after the largest loss. -/
theorem framing_independent_iff (config : TransportConfig) (stream : Bytes) :
    (∀ chunks, Cut stream chunks → config.handed chunks = upTo config.maxLineBytes (requestLines stream)) ↔
      afterFirst stream = [] ∨ config.maxLineBytes < (firstLine stream).length ∨
        stopsServer (firstLine stream) = true ∨
        config.maxLineBytes + recvBufferBytes ≤ (firstLine (afterFirst stream)).length := by
  rcases newline_cases stream with hnone | ⟨first, rest, hfirst, rfl⟩
  · apply iff_of_true _ (Or.inl (afterFirst_of_not_mem hnone))
    intro chunks hcut
    rw [← hcut.whole] at hnone ⊢
    exact (config.handed_eq_serve chunks).trans (serve_of_not_mem hnone)
  · rw [afterFirst_of_newline hfirst, firstLine_of_newline hfirst, requestLines_of_newline hfirst, upTo]
    constructor
    · intro hall
      by_contra hnot
      simp only [not_or, Bool.not_eq_true] at hnot
      obtain ⟨hne, hshort, hgoes, hreach⟩ := hnot
      obtain ⟨lost, hlost, hlossy⟩ := exists_lossy config.nonzero hne (by omega)
      have hcut := hall _ (lossyCut_cut hlost)
      rw [config.handed_eq_serve, serve_lossyCut hfirst (by omega) hgoes, if_neg hshort, hgoes,
        if_neg Bool.false_ne_true] at hcut
      exact hlossy (List.cons.inj hcut).2
    · intro hcond chunks hcut
      rw [config.handed_eq_serve]
      by_cases hlong : config.maxLineBytes < first.length
      · rw [if_pos hlong]
        exact serve_of_long (Nat.zero_le _) hfirst hlong hcut.whole
      · obtain ⟨lost, chunks', hlost, rfl, hserve⟩ :=
          @serve_of_newline config.maxLineBytes [] first chunks hfirst (by rw [List.nil_append]; omega) _ hcut.whole hcut.bounded
        rw [hserve, if_neg hlong, List.nil_append]
        cases hstops : stopsServer first with
        | true => rfl
        | false =>
          rw [if_neg Bool.false_ne_true, if_neg Bool.false_ne_true]
          rcases hcond with hnothing | hfirstLong | hfirstStops | hreach
          · have hend := List.append_eq_nil_iff.mp hnothing
            rw [hend.1, List.nil_append]
            exact congrArg (first :: ·) (serve_of_not_mem (by rw [hend.2]; exact List.not_mem_nil))
          · exact absurd hfirstLong hlong
          · rw [hstops] at hfirstStops
            cases hfirstStops
          · rw [serve_of_lost (by omega) hreach, upTo_of_firstLine (by omega)]

/-- Two requests in one packet. -/
def pipelined : Bytes := text "\x7b\"op\":\"status\"\x7d\n\x7b\"op\":\"flush\"\x7d\n"

/-- The second of two requests that arrive together is never handed over. -/
theorem pipelined_request_lost :
    Cut pipelined [pipelined] ∧ ({} : TransportConfig).handed [pipelined] = [text "\x7b\"op\":\"status\"\x7d"] ∧
      ({} : TransportConfig).handed [pipelined] ≠ upTo ({} : TransportConfig).maxLineBytes (requestLines pipelined) := by
  refine ⟨⟨?_, ?_, ?_⟩, ?_, ?_⟩
  · decide +kernel
  · decide +kernel
  · decide +kernel
  · decide +kernel
  · decide +kernel

end Framing

end LatencyObservatory.Runtime
