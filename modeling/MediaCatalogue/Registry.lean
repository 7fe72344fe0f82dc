import MediaCatalogue.Fault
import MediaCatalogue.Publisher

/-!
# The catalogue of publishers

A `Registry` finds publishers by their keys. It is closed: it is built once, from publishers with
different keys.

* `Registry.ofList` builds a registry, or names the first key that occurs again;
* `Registry.builtin` is the registry that is used when no other is given.
-/

namespace MediaCatalogue

/-- The known publishers by key. -/
structure Registry where
  /-- The publisher of each key. -/
  byKey : Std.ExtTreeMap String Publisher

namespace Registry

/-- The publisher of a key, if it is known. -/
def find? (registry : Registry) (key : String) : Option Publisher := registry.byKey[key]?

/-- The known publishers in the order of their keys. -/
def toList (registry : Registry) : List Publisher := registry.byKey.toList.map Prod.snd

/-- The number of publishers. -/
def size (registry : Registry) : Nat := registry.byKey.size

/-- No publisher is known. -/
def isEmpty (registry : Registry) : Bool := registry.byKey.isEmpty

/-- No publishers. -/
def empty : Registry := ⟨∅⟩

/-- Adds a publisher with a new key. -/
def add (registry : Registry) (publisher : Publisher) : Except Fault Registry :=
  if publisher.key ∈ registry.byKey then
    .error (.configuration (.duplicatePublisher publisher.key))
  else .ok ⟨registry.byKey.insert publisher.key publisher⟩

/-- The registry of some publishers. -/
def ofList (publishers : List Publisher) : Except Fault Registry := publishers.foldlM add empty

/-- The publishers that are always known. -/
def builtinPublishers : List Publisher :=
  [⟨"bbc", "GB", "BBC"⟩, ⟨"c4", "GB", "Channel 4"⟩, ⟨"itv", "GB", "ITV"⟩,
   ⟨"five", "GB", "Channel 5"⟩, ⟨"pressassociation", "GB", "Press Association"⟩,
   ⟨"radiotimes", "GB", "Radio Times"⟩, ⟨"youview", "GB", "YouView"⟩, ⟨"bt", "GB", "BT TV"⟩,
   ⟨"netflix", "ALL", "Netflix"⟩, ⟨"amazon", "ALL", "Amazon Video"⟩, ⟨"itunes", "ALL", "iTunes"⟩,
   ⟨"youtube", "ALL", "YouTube"⟩, ⟨"rovi", "ALL", "Rovi"⟩,
   ⟨"musicbrainz", "ALL", "MusicBrainz"⟩, ⟨"wikipedia", "ALL", "Wikipedia"⟩,
   ⟨"equivalence", "ALL", "Equivalence Engine"⟩]

/-- The registry of the publishers that are always known. -/
def builtin : Registry :=
  ⟨builtinPublishers.foldl (fun byKey p => byKey.insert p.key p) ∅⟩

end Registry

end MediaCatalogue
