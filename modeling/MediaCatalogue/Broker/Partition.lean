import MediaCatalogue.Text.Utf8

/-!
# Partitions

Messages with one key go to one partition, so that they are delivered in order. The partition is the
hash of the key (64-bit FNV-1a over its UTF-8 bytes) modulo the number of partitions, which does not
change between runs.
-/

namespace MediaCatalogue.Partition

/-- The hash of no bytes. -/
def hashBasis : UInt64 := 0xcbf29ce484222325

/-- The factor of the hash. -/
def hashPrime : UInt64 := 0x100000001b3

/-- The hash of a key. -/
def hash (key : String) : UInt64 :=
  (Text.Utf8.encode key).foldl (fun h byte => (h ^^^ byte.toUInt64) * hashPrime) hashBasis

/-- The partition of a key. -/
def ofKey (partitions : Nat) (key : String) : Nat := (hash key).toNat % partitions

end MediaCatalogue.Partition
