import LatencyObservatory.Core.Error
import LatencyObservatory.Core.Policy
import LatencyObservatory.Store.Format
import Mathlib.Data.List.Sort

/-!
# Store directory and manifest

The directory as the process sees it: every byte handed to a file is in its `content`, and the first
`synced` bytes are on stable storage. `readManifest` is the check that `StoreReader::open` makes
before anything in the directory is interpreted.
-/

namespace LatencyObservatory.Store
open LatencyObservatory.Core LatencyObservatory.Lib

structure File where
  name : Bytes
  content : Bytes
  synced : Nat
deriving DecidableEq, Repr

/-- What the store path names. -/
inductive PathKind where
  | missing
  | directory
  | other
deriving DecidableEq, Repr

structure Directory where
  kind : PathKind
  manifest : Option Bytes
  files : List File
deriving DecidableEq, Repr

structure StoreConfig where
  directory : Bytes
  limits : Limits
  policyDigest : Bytes
  createIfMissing : Bool := true

namespace Directory

def empty : Directory :=
  ⟨.missing, none, []⟩

/-- Changes the file of a given name and leaves the others alone. -/
def update (d : Directory) (name : Bytes) (change : File → File) : Directory :=
  { d with files := d.files.map fun f => if f.name = name then change f else f }

/-- `fopen(name, "wb")`: a new empty file, or an existing one emptied. -/
def create (d : Directory) (name : Bytes) : Directory :=
  if d.files.any fun f => f.name == name then
    d.update name fun _ => ⟨name, [], 0⟩
  else { d with files := d.files ++ [⟨name, [], 0⟩] }

/-- `fwrite` at the end of an open file. -/
def write (d : Directory) (name bytes : Bytes) : Directory :=
  d.update name fun f => { f with content := f.content ++ bytes }

/-- `durable_flush`. -/
def flush (d : Directory) (name : Bytes) : Directory :=
  d.update name fun f => { f with synced := f.content.length }

end Directory

/-- `list_segments`: the files whose name is a segment name, in file name order. -/
def listSegments (d : Directory) : List File :=
  (d.files.filter fun f => (segmentIdFromName f.name).isSome).insertionSort fun a b => a.name ≤ b.name

/-! ## Manifest -/

def storeMagic : Bytes := text "LATOBS-STORE"

def manifestPath (config : StoreConfig) : Bytes :=
  config.directory ++ text "/manifest.lobs"

def manifestBody (now : Nanos) (policyDigest : Bytes) : Bytes :=
  text "magic=" ++ storeMagic ++ text "\n" ++ text "format=" ++ decimal formatVersion ++ text "\n" ++
    text "created_ns=" ++ decimalInt now.toInt ++ text "\n" ++ text "policy_digest=" ++ policyDigest ++ text "\n"

def crcText (body : Bytes) : Bytes :=
  hexFixed 8 (crc32c body).toNat

def manifestText (now : Nanos) (policyDigest : Bytes) : Bytes :=
  manifestBody now policyDigest ++ text "crc32c=" ++ crcText (manifestBody now policyDigest) ++ text "\n"

/-- `find`: what follows the first occurrence of `key`. -/
def afterFirst (key : Bytes) : Bytes → Option Bytes
  | [] => none
  | b :: bs => if key.isPrefixOf (b :: bs) then some ((b :: bs).drop key.length) else afterFirst key bs

/-- `rfind`: what precedes and what follows the last occurrence of `key`. -/
def splitLast (key : Bytes) : Bytes → Option (Bytes × Bytes)
  | [] => none
  | b :: bs =>
    match splitLast key bs with
    | some (before, after) => some (b :: before, after)
    | none => if key.isPrefixOf (b :: bs) then some ([], (b :: bs).drop key.length) else none

def manifestField (body name : Bytes) : Option Bytes :=
  (afterFirst (name ++ text "=") body).map fun value => value.takeWhile (· ≠ 10)

structure StoreReader where
  config : StoreConfig
  manifestPolicyDigest : Bytes
  manifestFormat : Nat

/-- The checks of `StoreReader::open` on the manifest text. -/
def readManifest (config : StoreConfig) (manifest : Bytes) : Except Error StoreReader :=
  if manifest.length > 4096 then
    .error ⟨.integrityFailure, "store manifest is implausibly large", manifestPath config⟩
  else
    match splitLast (text "crc32c=") manifest with
    | none => .error ⟨.integrityFailure, "store manifest has no integrity check", manifestPath config⟩
    | some (body, crc) =>
      if (crc.reverse.dropWhile fun c => c = 10 ∨ c = 13).reverse ≠ crcText body then
        .error ⟨.integrityFailure, "store manifest integrity check failed", manifestPath config⟩
      else if manifestField body (text "magic") ≠ some storeMagic then
        .error ⟨.integrityFailure, "store manifest magic does not match", manifestPath config⟩
      else
        match (manifestField body (text "format")).bind fun format => (parseU64 format).map (format, ·) with
        | none => .error ⟨.integrityFailure, "store manifest has no usable format version", manifestPath config⟩
        | some (format, version) =>
          if version ≠ formatVersion then
            .error ⟨.versionMismatch, "store format version is not supported by this build", format⟩
          else .ok ⟨config, (manifestField body (text "policy_digest")).getD [], version⟩

def StoreReader.open (config : StoreConfig) (d : Directory) : Except Error StoreReader :=
  if config.directory = [] then
    .error ⟨.invalidArgument, "store directory must not be empty", []⟩
  else
    match d.manifest with
    | none => .error ⟨.notFound, "store manifest is missing", manifestPath config⟩
    | some manifest => readManifest config manifest

end LatencyObservatory.Store
