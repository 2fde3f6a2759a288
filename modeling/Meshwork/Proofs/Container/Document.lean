import Meshwork.Container.Document
import Meshwork.Proofs.Container.Record
import Meshwork.Proofs.DataPath
import Meshwork.Proofs.Timestamp
import Meshwork.Proofs.Text.Utf8

/-!
# Container documents read back

The reader of containers gives back the document that was written
(`Container.takeDocument_tree`), member by member: the path from its text, the
record from its JSON, the version from its digits, and when it was written from
date and time, if that is a moment of the calendar. The document of a store then
passes the three checks, since the checksum is computed of the same entries twice
(`Container.parse_encode`).

Members are looked up by their names, so their order and the white space between them do
not matter to the reader; that the writer's document is read is a statement about one
order and one layout of the many that are accepted.
-/

namespace Meshwork.Container

open Json

theorem readable_entriesJson (entries : List Entry) : (entriesJson entries).Readable := by
  refine .array fun value hvalue => ?_
  obtain ⟨e, -, rfl⟩ := List.mem_map.1 hvalue
  exact .object (by simp [Value.Readable.string, e.record.readable_json])

theorem readable_json (d : Document) : d.json.Readable := by
  have hversion : (Value.nat d.version.toNat).Readable :=
    .number (Number.readsBack_natural (Nat.lt_trans d.version.toNat_lt (by decide)))
  exact .object (by simp [Value.Readable.string, hversion, readable_entriesJson])

/-- A path is taken from its text. -/
theorem takePath_text (p : DataPath) : takePath (.string (.ok p.text)) = .ok p := by
  unfold takePath
  show (DataPath.parse p.text).mapError _ = _
  rw [DataPath.parse_text]
  rfl

/-- **An entry is read back** from its JSON. No condition is needed: whatever record stands beside
the path comes back with it. -/
theorem takeEntry_tree (e : Entry) : takeEntry e.json.tree = .ok e := by
  have hrecord := e.record.ofTree_tree recordDepth
  rw [Entry.json, Value.tree, Value.treeMembers, Value.treeMembers, Value.treeMembers, Value.tree]
  unfold takeEntry Tree.record
  simp [foldMembers, field, takePath_text, hrecord, demand, Bind.bind, Except.bind, Pure.pure,
    Except.pure]

/-- Entries are taken from their list. -/
theorem takeEntries_tree (entries : List Entry) :
    Tree.list takeEntry (entriesJson entries).tree = .ok entries := by
  rw [entriesJson, Value.tree]
  exact takeItems_treeItems fun e _ => takeEntry_tree e

theorem takeVersion_nat (version : UInt32) :
    takeVersion (.number (.ok (.natural version.toNat))) = .ok version.toNat :=
  if_pos version.toNat_lt

/-- A moment is taken from its text. -/
theorem takeTimestamp_text {t : Timestamp} (h : t.IsMoment) :
    takeTimestamp (.string (.ok (t.text "Z"))) = .ok t := by
  rw [takeTimestamp, Timestamp.parse_text h]
  rfl

/-- **A container is read back** from its JSON. The moment of writing has to be one of the
calendar, since the reader refuses any other. -/
theorem takeDocument_tree {d : Document} (h : d.createdAt.IsMoment) :
    takeDocument d.json.tree = .ok d := by
  have htime := takeTimestamp_text h
  have hversion := takeVersion_nat d.version
  have hentries := takeEntries_tree d.entries
  have hword : d.version.toNat.toUInt32 = d.version := d.version.ofNat_toNat
  unfold takeDocument Tree.record
  simp [Document.json, Value.tree, Value.treeMembers, Value.nat, foldMembers, field, Tree.text,
    htime, hversion, hentries, hword, demand, Bind.bind, Except.bind, Pure.pure, Except.pure]

/-- **A document that was written is read.** The text that is written over indented lines gives
the same tree as the value does, so nothing is left to show but that the members are taken from
it. -/
theorem takeDocument_pretty {d : Document} (h : d.createdAt.IsMoment) :
    Json.takeDocument takeDocument (Utf8.symbols (bytesOf d.json.pretty)) = .ok d := by
  rw [Utf8.symbols_bytesOf, Json.takeDocument_pretty _ (readable_json d), takeDocument_tree h]

/-- **The container of a store is accepted.** Its format and version are those that the reader
asks for, and its checksum is that of the entries beside it. -/
theorem parse_encode {now : Timestamp} (h : now.IsMoment) (s : Store) :
    parse (bytesOf (encode now s)) = .ok (ofStore now s) := by
  unfold parse encode
  rw [takeDocument_pretty (d := ofStore now s) h]
  simp [ofStore, Except.mapError, Bind.bind, Except.bind, Pure.pure, Except.pure]

end Meshwork.Container
