import Meshwork.Proofs.Container.Document
import Meshwork.Proofs.Json.Compact
import Meshwork.Proofs.Text.Hex

/-!
# What a checksum pins down

The checksum of a container is the digest of its objects as they are written without
white space, not of the bytes of the file. Whoever changes the file without changing
an object goes unnoticed. Nobody else does: the text that is digested determines
the objects (`Container.message_injective`), so that two containers with the same
checksum list the same objects in the same order, or their texts are two messages
with one digest (`Container.checksum_pins`).

No function with digests of 32 bytes is free of such collisions. Therefore nothing is
assumed of the digest in general, and `Sha256.IsCollision` is a property of two given
messages.
-/

namespace Meshwork

/-- **A collision**: two messages with the same digest. -/
structure Sha256.IsCollision (a b : Bytes) : Prop where
  /-- They differ. -/
  ne : a ≠ b
  /-- Their digests do not. -/
  digest_eq : digest a = digest b

instance (a b : Bytes) : Decidable (Sha256.IsCollision a b) :=
  decidable_of_iff (a ≠ b ∧ Sha256.digest a = Sha256.digest b)
    ⟨fun h => ⟨h.1, h.2⟩, fun h => ⟨h.ne, h.digest_eq⟩⟩

/-- The text of a digest shows the digest. -/
theorem Sha256.digest_eq_of_hexDigest_eq {a b : Bytes} (h : hexDigest a = hexDigest b) :
    digest a = digest b := by
  have hdecoded : Hex.decode (Hex.encode (digest a)) = Hex.decode (Hex.encode (digest b)) :=
    congrArg Hex.decode h
  rw [Hex.decode_encode, Hex.decode_encode] at hdecoded
  exact Except.ok.inj hdecoded

namespace Container

open Json

/-! ## The message

The objects of a container are written as one JSON value, and values that can be read are
told apart by their compact text. So the message is as good as the objects. -/

/-- **What is digested** for the checksum of objects. It is the JSON of the objects without white
space, whatever the layout of the file that they were read from. -/
def message (entries : List Entry) : Bytes := bytesOf (entriesJson entries).compact

/-- **The message determines the objects**: their paths, records and order. This rests on the
grammar alone: two values whose texts can be read back have different texts. -/
theorem message_injective : Function.Injective message := by
  intro entries entries' h
  have hvalue : entriesJson entries = entriesJson entries' :=
    (readable_entriesJson entries).eq_of_compact_eq (readable_entriesJson entries')
      (Utf8.bytesOf_inj.1 h)
  have hread := takeEntries_tree entries
  rw [hvalue, takeEntries_tree entries'] at hread
  exact (Except.ok.inj hread).symm

/-- **Objects with the same checksum** are the same, or their messages collide. The collision
would be one of the digest itself, between two messages that can be written down from the two
lists. -/
theorem eq_of_checksum_eq {entries entries' : List Entry}
    (hcollision : ¬ Sha256.IsCollision (message entries) (message entries'))
    (h : checksum entries = checksum entries') : entries = entries' := by
  by_contra hne
  exact hcollision ⟨message_injective.ne hne, Sha256.digest_eq_of_hexDigest_eq h⟩

/-! ## Reading with a checksum

Reading a document and accepting it are two steps. The first does not look at the
checksum; the second looks at three marks, the format, the version and the checksum, and
then puts the objects back. A file that was tampered with passes the first step and is
caught in the second. -/

/-- **Bytes read as a document**, whether or not it is accepted. Of the bytes only their reading
matters from here on, so two files that differ in white space or in the order of members are read
as the same document. -/
def Reads (bytes : Bytes) (d : Document) : Prop :=
  Json.takeDocument takeDocument (Utf8.symbols bytes) = .ok d

/-- What is read is accepted with the right format, version and checksum. -/
theorem Reads.parse_eq {bytes : Bytes} {d : Document} (h : Reads bytes d) :
    parse bytes =
      if d.format ≠ format then .error (.parse "container" s!"unexpected format '{d.format}'")
      else if version < d.version then .error (.unsupportedVersion d.version version)
      else if checksum d.entries ≠ d.checksum then
        .error (.checksumMismatch d.checksum (checksum d.entries))
      else .ok d := by
  unfold parse
  rw [h]
  simp only [Except.mapError, Bind.bind, Except.bind, Pure.pure, Except.pure, throw, throwThe,
    MonadExceptOf.throw]

/-- What is accepted was read, and its three marks are right. -/
theorem of_parse_eq_ok {bytes : Bytes} {d : Document} (h : parse bytes = .ok d) :
    Reads bytes d ∧ d.format = format ∧ ¬ version < d.version
      ∧ checksum d.entries = d.checksum := by
  cases hread : Json.takeDocument takeDocument (Utf8.symbols bytes) with
  | error error =>
    unfold parse at h
    rw [hread] at h
    cases h
  | ok found =>
    rw [Reads.parse_eq hread] at h
    -- The three marks are compared one after another, and each difference would be an error.
    split at h
    · cases h
    split at h
    · cases h
    split at h
    · cases h
    rename_i hformat hversion hchecksum
    obtain rfl := Except.ok.inj h
    exact ⟨hread, not_not.1 hformat, hversion, not_not.1 hchecksum⟩

/-- The store of what is accepted. -/
theorem decode_of_parse {bytes : Bytes} {d : Document} (h : parse bytes = .ok d) :
    decode bytes = restore .empty d.entries := by
  unfold decode
  rw [h]
  rfl

/-- What is refused has no store. -/
theorem decode_of_parse_error {bytes : Bytes} {error : CodecError}
    (h : parse bytes = .error error) : decode bytes = .error error := by
  unfold decode
  rw [h]
  rfl

/-- **A checksum pins down the objects.** Let a container be accepted, and let other
bytes record the same checksum, in whatever layout. If they are accepted as well, then
they list the same objects in the same order, and hold the same store. If they read as
a document of the same format and version with other objects, then they are refused
for their checksum. In both cases their message must not collide with that of the
container. -/
theorem checksum_pins {a : Bytes} {d : Document} (ha : parse a = .ok d) {b : Bytes} {e : Document}
    (hchecksum : e.checksum = d.checksum)
    (hcollision : ¬ Sha256.IsCollision (message d.entries) (message e.entries)) :
    (parse b = .ok e → e.entries = d.entries ∧ decode b = decode a)
      ∧ (Reads b e → e.format = d.format → e.version = d.version → e.entries ≠ d.entries →
        parse b = .error (.checksumMismatch d.checksum (checksum e.entries))
          ∧ decode b = .error (.checksumMismatch d.checksum (checksum e.entries))) := by
  obtain ⟨-, hformat, hversion, hright⟩ := of_parse_eq_ok ha
  have hentries : checksum e.entries = e.checksum → e.entries = d.entries := fun h =>
    (eq_of_checksum_eq hcollision (hright.trans (h.trans hchecksum).symm)).symm
  refine ⟨fun hb => ?_, fun hb heformat heversion hne => ?_⟩
  · obtain ⟨-, -, -, hright'⟩ := of_parse_eq_ok hb
    have hsame := hentries hright'
    exact ⟨hsame, by rw [decode_of_parse hb, decode_of_parse ha, hsame]⟩
  · have hparse : parse b = .error (.checksumMismatch d.checksum (checksum e.entries)) := by
      rw [hb.parse_eq, if_neg (not_not.2 (heformat.trans hformat)), if_neg (heversion ▸ hversion),
        if_pos (mt hentries hne), hchecksum]
    exact ⟨hparse, decode_of_parse_error hparse⟩

/-- A group is added to an empty container without touching its checksum. -/
theorem checksum_pins_added :
    let now : Timestamp := ⟨0, 0⟩
    let added : Document := ⟨format, version, now, checksum [], [⟨.single "A" (by decide), .group⟩]⟩
    parse (bytesOf (encode now .empty)) = .ok (ofStore now .empty)
      ∧ parse (bytesOf added.json.pretty)
        = .error (.checksumMismatch (checksum []) (checksum added.entries)) := by
  intro now added
  have hnow : now.IsMoment := ⟨by decide, Or.inl (by decide)⟩
  have ha := parse_encode hnow .empty
  have hcollision : ¬ Sha256.IsCollision (message (ofStore now .empty).entries)
      (message added.entries) := by decide +kernel
  have hpins := checksum_pins ha (b := bytesOf added.json.pretty) (e := added) rfl hcollision
  exact ⟨ha, (hpins.2 (takeDocument_pretty (d := added) hnow) rfl rfl (by decide)).1⟩

end Container

end Meshwork
