import MediaCatalogue.Distinct
import MediaCatalogue.Registry
import MediaCatalogue.Toml.Decode

/-!
# Sources of an application

An application sees only the publishers that it has enabled, and prefers those that it names
earlier. `Sources` are the enabled publishers in order of precedence, with different keys.

* `Sources.ofPublishers` keeps the first of several publishers with one key;
* `Sources.ofKeys` finds publishers in a registry, or names the first key that is not known;
* `Sources.rank?` is the place of a publisher, which is found by its key.
-/

namespace MediaCatalogue

/-- The enabled publishers, the preferred ones first. -/
structure Sources where
  /-- The publishers in order of precedence. -/
  precedence : List Publisher
deriving DecidableEq, Repr, Inhabited

/-- Finite sets of publishers. -/
abbrev PublisherSet := Std.ExtTreeSet Publisher

namespace Sources

/-- Publishers in order of precedence; a publisher that is named again keeps its first place. -/
def ofPublishers (publishers : List Publisher) : Sources := ⟨distinctBy Publisher.key publishers⟩

/-- The publisher of a key that must be known. -/
def findKey (registry : Registry) (key : String) : Except Fault Publisher :=
  match registry.find? key with
  | some publisher => .ok publisher
  | none => .error (.configuration (.unknownPublisher key))

/-- The publishers of some keys in order of precedence. -/
def ofKeys (registry : Registry) (keys : List String) : Except Fault Sources := do
  return ofPublishers (← keys.mapM (findKey registry))

/-- The keys that a document with the field `enabled` lists. -/
def keysDecoder : Toml.Decoder (List String) :=
  Toml.Decoder.record
    [Toml.Decoder.field "enabled" (Toml.Decoder.list Toml.Decoder.text) fun keys _ => keys] []

/-- The enabled publishers as a set. -/
def enabled (sources : Sources) : PublisherSet := Std.ExtTreeSet.ofList sources.precedence

/-- The place of a publisher; the preferred one has place 0. -/
def rank? (sources : Sources) (publisher : Publisher) : Option Nat :=
  sources.precedence.findIdx? (·.key = publisher.key)

/-- The publisher is enabled. -/
def isEnabled (sources : Sources) (publisher : Publisher) : Bool := (sources.rank? publisher).isSome

/-- No publisher is enabled. -/
def isEmpty (sources : Sources) : Bool := sources.precedence.isEmpty

/-- The keys of the enabled publishers in order of precedence. -/
def keys (sources : Sources) : List String := sources.precedence.map Publisher.key

end Sources

end MediaCatalogue
