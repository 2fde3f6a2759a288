import Meshwork.Digest.Sha256
import Meshwork.Store.Basic

/-!
# Fingerprints

The fingerprint of a store is the digest of all that it holds: every path
in order with the canonical rendering of the object there. A zero byte
follows the path and a line feed the rendering. Identifiers do not count,
so stores with the same contents have the same fingerprint, however they
came about.

The renderings are texts that say what an object is, and the path is the text of its
names. Nothing else of a store enters.
-/

namespace Meshwork.Store

/-- What the fingerprint covers of one object. -/
def entryBytes (path : DataPath) (object : DataObject) : Bytes :=
  bytesOf path.text ++ 0 :: bytesOf object.canonical ++ [10]

/-- **All that the fingerprint covers.** Each object has its path, a zero byte, its rendering and
a line feed, in the order of the list of paths. -/
def fingerprintBytes (s : Store) : Bytes :=
  s.contents.flatMap fun (path, object) => entryBytes path object

/-- **The fingerprint**, as hexadecimal text. It is short and depends on nothing but paths and
objects. -/
def fingerprint (s : Store) : String := Sha256.hexDigest s.fingerprintBytes

end Meshwork.Store
