import LatencyObservatory.Store.Writer

/-!
# Writer sessions

A session opens a writer on the directory, appends and syncs, and ends with `close` or with a crash.
`History` keeps the directory together with what the callers were told: the entries whose append
succeeded, and those of them that a later sync or close of their session made durable.
-/

namespace LatencyObservatory.Store
open LatencyObservatory.Core LatencyObservatory.Lib

inductive WriterOp where
  | append (now : Nanos) (entry : Entry)
  | sync

/-- How a session ends. A crash keeps some number of bytes of the open segment, at least the synced
ones; it may strike while the footer is being written. -/
inductive Ending where
  | close
  | crash (closing : Bool) (keep : Nat)

structure WriterSession where
  config : StoreConfig
  openedAt : Nanos
  ops : List WriterOp
  ending : Ending

/-- A running session. `overran` remembers an append that went into a segment which already held
`2 ^ 32 - 1` records. -/
structure Live where
  writer : StoreWriter
  directory : Directory
  appended : List Entry := []
  durable : List Entry := []
  overran : Bool := false

/-- The next record stays in the open segment and makes its record count reach `2 ^ 32`. -/
def StoreWriter.overruns (w : StoreWriter) (recordBytes : Nat) : Bool :=
  !w.rotates recordBytes && decide (2 ^ 32 ≤ w.segmentRecords + 1)

def Live.step (s : Live) : WriterOp → Live
  | .append now entry =>
    match s.writer.append now entry s.directory with
    | (.ok _, writer, directory) =>
      { s with
        writer, directory
        appended := s.appended ++ [entry]
        overran := s.overran || s.writer.overruns (recordHeaderBytes + entry.2.length) }
    | (.error _, writer, directory) => { s with writer, directory }
  | .sync =>
    match s.writer.sync s.directory with
    | (.ok _, writer, directory) => { s with writer, directory, durable := s.appended }
    | (.error _, writer, directory) => { s with writer, directory }

/-- What a crash leaves of the open segment. -/
def crashDirectory (w : StoreWriter) (d : Directory) (closing : Bool) (keep : Nat) : Directory :=
  match w.file with
  | none => d
  | some name =>
    (if closing then d.write name w.footer else d).update name fun f =>
      { f with content := f.content.take (max f.synced keep) }

structure History where
  directory : Directory := .empty
  written : List Entry := []
  durable : List Entry := []
  overran : Bool := false

/-- The operations of a session on the writer it opened. -/
def WriterSession.run (session : WriterSession) (w : StoreWriter) (d : Directory) : Live :=
  session.ops.foldl Live.step { writer := w, directory := d }

/-- A session whose `open` fails leaves everything as it was. -/
def History.session (h : History) (session : WriterSession) : History :=
  match StoreWriter.open session.config session.openedAt h.directory with
  | .error _ => h
  | .ok (w, d) =>
    let live := session.run w d
    match session.ending with
    | .close =>
      { directory := (live.writer.close live.directory).2.2
        written := h.written ++ live.appended
        durable := h.durable ++ live.appended
        overran := h.overran || live.overran }
    | .crash closing keep =>
      { directory := crashDirectory live.writer live.directory closing keep
        written := h.written ++ live.appended
        durable := h.durable ++ live.durable
        overran := h.overran || live.overran }

/-- Sessions one after another, from a path where nothing is yet. -/
def runSessions (sessions : List WriterSession) : History :=
  sessions.foldl History.session {}

end LatencyObservatory.Store
