import ItemFilter.Files.Path
import ItemFilter.Vocabulary

/-!
# Settings

What a user can set: what to do with unknown keywords, files that replace the built-in vocabularies,
and names to accept besides.
-/

namespace ItemFilter

/-- A vocabulary that a file can replace. -/
inductive Dataset where
  | classes
  | bases
  | sounds
deriving DecidableEq, Repr

namespace Dataset

/-- The name of a data set in the settings. -/
def name : Dataset → String
  | classes => "classes"
  | bases => "bases"
  | sounds => "sounds"

end Dataset

/-- The files that replace the built-in vocabularies. -/
structure Datasets where
  classes : Option String
  bases : Option String
  sounds : Option String
deriving DecidableEq, Repr

namespace Datasets

/-- No files. -/
def none : Datasets := ⟨.none, .none, .none⟩

/-- Changes the paths of all files. -/
def mapPaths (f : String → String) (d : Datasets) : Datasets :=
  ⟨d.classes.map f, d.bases.map f, d.sounds.map f⟩

/-- The paths of all files. -/
def paths (d : Datasets) : List String := d.classes.toList ++ d.bases.toList ++ d.sounds.toList

/-- Whether the same files are named, up to the writing of their paths. -/
def agree (d e : Datasets) : Bool :=
  let same (p q : Option String) : Bool :=
    p.map Files.Path.components = q.map Files.Path.components
  same d.classes e.classes && same d.bases e.bases && same d.sounds e.sounds

end Datasets

/-- Names accepted besides the vocabularies. -/
structure Whitelist where
  classes : List String
  bases : List String
deriving DecidableEq, Repr

namespace Whitelist

/-- No names. -/
def empty : Whitelist := ⟨[], []⟩

end Whitelist

/-- What a user can set. -/
structure Settings where
  unknownKeywords : UnknownKeywords
  datasets : Datasets
  whitelist : Whitelist
deriving DecidableEq, Repr

namespace Settings

/-- The settings of a user who has set nothing. -/
def default : Settings := ⟨.ignore, .none, .empty⟩

/-- Whether two settings agree, up to the writing of paths. -/
def agree (s t : Settings) : Bool :=
  s.unknownKeywords = t.unknownKeywords && s.datasets.agree t.datasets && s.whitelist = t.whitelist

end Settings

end ItemFilter
