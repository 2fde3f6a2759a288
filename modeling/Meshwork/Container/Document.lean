import Meshwork.Container.Record
import Meshwork.Digest.Sha256
import Meshwork.Mesh.Basic
import Meshwork.Store.Change
import Meshwork.Timestamp

/-!
# Containers

A container holds a whole store in one JSON document: what format it is, its
version, when it was written, a checksum, and the objects, each with its
path and every object after the one above it. The checksum is the digest of
the list of objects as it is written without white space, so it covers their
order and every bit of them and nothing else.

Reading checks format, version and checksum, in this order, and then puts
the objects into an empty store one after another. An object that the store
refuses ends the reading.
-/

namespace Meshwork.Container

open Json

/-- The name of the format. -/
def format : String := "meshpipe-container"

/-- The version that is written, and the latest that is read. -/
def version : UInt32 := 1

/-- **An object in a container.** Entries stand in the order of the list of all paths, so that
parents come before what lies beneath them. -/
structure Entry where
  /-- Where it lies. -/
  path : DataPath
  /-- What it is. -/
  record : Record
deriving DecidableEq

/-- **A container.** It is what the JSON says, before any object is made from it. -/
structure Document where
  /-- What it says to be. -/
  format : String
  /-- Its version. -/
  version : UInt32
  /-- When it was written. -/
  createdAt : Timestamp
  /-- The checksum of its objects. -/
  checksum : String
  /-- The objects. -/
  entries : List Entry
deriving DecidableEq

/-! ## Writing

The objects are listed in the order of the store's paths. The checksum is computed of
their compact text, while the document itself is written over indented lines. -/

/-- An entry in JSON. -/
def Entry.json (e : Entry) : Value :=
  .object [("path", .string e.path.text), ("object", e.record.json)]

/-- The objects in JSON. -/
def entriesJson (entries : List Entry) : Value := .array (entries.map Entry.json)

/-- **The checksum of objects.** It is taken of their JSON without white space, so the layout of
the file does not matter. -/
def checksum (entries : List Entry) : String :=
  Sha256.hexDigest (bytesOf (entriesJson entries).compact)

/-- The objects of a store. -/
def entriesOf (s : Store) : List Entry :=
  s.contents.map fun (path, object) => ⟨path, Record.ofObject object⟩

/-- The container of a store, written at some moment. -/
def ofStore (now : Timestamp) (s : Store) : Document :=
  let entries := entriesOf s
  ⟨format, version, now, checksum entries, entries⟩

/-- A container in JSON. -/
def Document.json (d : Document) : Value :=
  .object [("format", .string d.format), ("version", .nat d.version.toNat),
    ("created_at", .string (d.createdAt.text "Z")), ("checksum", .string d.checksum),
    ("objects", entriesJson d.entries)]

/-- **The text of the container of a store.** The time is given from outside, and it is the only
thing in the text that does not come from the store. -/
def encode (now : Timestamp) (s : Store) : String := (ofStore now s).json.pretty

/-! ## Reading

A document is first read as what it says, then checked, and only then believed. The
objects come last, since an object is of no use if the marks are wrong. -/

/-- A path from its text. -/
def takePath (tree : Tree) : Except Error DataPath := do
  let text ← tree.text
  (DataPath.parse text).mapError fun e => .custom e.message

/-- A point in time from its text. -/
def takeTimestamp : Tree → Except Error Timestamp
  | .string (.ok text) => (Timestamp.parse text).mapError fun e => .custom e.message
  | tree => .error (tree.unexpected "an RFC 3339 formatted date and time string")

/-- How deeply the members of a record may nest. -/
def recordDepth : Nat := depthLimit - 4

/-- An entry. -/
def takeEntry : Tree → Except Error Entry :=
  let expected := "struct Entry with 2 elements"
  Tree.record "struct Entry"
    (fun c => do
      let (path, c) ← c.demand 0 expected takePath
      let (record, c) ← c.demand 1 expected (Record.ofTree recordDepth)
      return (⟨path, record⟩, c))
    (none, none)
    (fun (path, record) key tree => do
      if key = "path" then return (← field key path takePath tree, record)
      else if key = "object" then
        return (path, ← field key record (Record.ofTree recordDepth) tree)
      else
        tree.skip
        return (path, record))
    (fun (path, record) => do return ⟨← demand "path" path, ← demand "object" record⟩)

/-- The members of a container as far as they are known. -/
structure Draft where
  /-- What it says to be. -/
  format : Option String
  /-- Its version. -/
  version : Option Nat
  /-- When it was written. -/
  createdAt : Option Timestamp
  /-- The checksum of its objects. -/
  checksum : Option String
  /-- The objects. -/
  entries : Option (List Entry)

/-- The version of a container. -/
def takeVersion : Tree → Except Error Nat := Tree.nat "u32" UInt32.size

/-- A container. -/
def takeDocument : Tree → Except Error Document :=
  let expected := "struct Document with 5 elements"
  Tree.record "struct Document"
    (fun c => do
      let (format, c) ← c.demand 0 expected Tree.text
      let (version, c) ← c.demand 1 expected takeVersion
      let (createdAt, c) ← c.demand 2 expected takeTimestamp
      let (checksum, c) ← c.demand 3 expected Tree.text
      let (entries, c) ← c.demand 4 expected (Tree.list takeEntry)
      return (⟨format, version.toUInt32, createdAt, checksum, entries⟩, c))
    (Draft.mk none none none none none)
    (fun d key tree => do
      if key = "format" then return { d with format := ← field key d.format Tree.text tree }
      else if key = "version" then
        return { d with version := ← field key d.version takeVersion tree }
      else if key = "created_at" then
        return { d with createdAt := ← field key d.createdAt takeTimestamp tree }
      else if key = "checksum" then
        return { d with checksum := ← field key d.checksum Tree.text tree }
      else if key = "objects" then
        return { d with entries := ← field key d.entries (Tree.list takeEntry) tree }
      else
        tree.skip
        return d)
    (fun d => do
      let format ← demand "format" d.format
      let version ← demand "version" d.version
      let createdAt ← demand "created_at" d.createdAt
      let checksum ← demand "checksum" d.checksum
      let entries ← demand "objects" d.entries
      return ⟨format, version.toUInt32, createdAt, checksum, entries⟩)

/-- **Reads a container** without its objects: format, version and checksum are right. They are
checked in this order, and the first that is wrong is reported. -/
def parse (bytes : Bytes) : Except CodecError Document := do
  let d ← (Json.takeDocument takeDocument (Utf8.symbols bytes)).mapError fun e =>
    .parse "container" e.message
  if d.format ≠ format then throw (.parse "container" s!"unexpected format '{d.format}'")
  if version < d.version then throw (.unsupportedVersion d.version version)
  let computed := checksum d.entries
  if computed ≠ d.checksum then throw (.checksumMismatch d.checksum computed)
  return d

/-- **What a container says about itself**, without its objects. -/
structure Header where
  /-- Its version. -/
  version : UInt32
  /-- When it was written. -/
  createdAt : Timestamp
  /-- The checksum of its objects. -/
  checksum : String
  /-- The number of its objects. -/
  objectCount : Nat
deriving DecidableEq

/-- The header of a container. -/
def Document.header (d : Document) : Header := ⟨d.version, d.createdAt, d.checksum, d.entries.length⟩

/-- **Reads the header of a container.** The objects count for the checksum, but
they are not put into a store. -/
def readHeader (bytes : Bytes) : Except CodecError Header := Document.header <$> parse bytes

/-- The error of an object that cannot be. -/
def invalid (path : DataPath) (message : String) : CodecError := .invalidObject path.text message

/-- Puts an object into a store. -/
def restoreEntry (s : Store) (e : Entry) : Except CodecError Store := do
  let object ← e.record.object.mapError fun fault => invalid e.path fault.message
  match (Store.create e.path object false).apply s with
  | (.ok _, s) => return s
  | (.error refusal, _) => throw (invalid e.path refusal.message)

/-- Puts objects into a store one after another. -/
def restore : Store → List Entry → Except CodecError Store
  | s, [] => .ok s
  | s, e :: rest => do
    let s ← restoreEntry s e
    restore s rest

/-- **The store that a container holds.** The objects are created one by one in an empty store,
which applies its own rules to them. -/
def decode (bytes : Bytes) : Except CodecError Store := do
  let d ← parse bytes
  restore .empty d.entries

end Meshwork.Container
