/-!
# Vocabularies

The names that rules may mention: item classes, base types and sounds. Classes and base types come
as a list of valid names and a white list of further ones. A vocabulary also says whether an unknown
keyword deserves a warning.
-/

namespace ItemFilter

/-- What to do with a keyword that is not known. -/
inductive UnknownKeywords where
  /-- Say nothing; the game skips such a row. -/
  | ignore
  /-- Report a warning on the keyword. -/
  | warn
deriving DecidableEq, Repr

namespace UnknownKeywords

/-- Both policies. -/
def all : List UnknownKeywords := [ignore, warn]

/-- The name of a policy in the settings. -/
def name : UnknownKeywords → String
  | ignore => "ignore"
  | warn => "warn"

/-- The policy with this name. -/
def ofName? (text : String) : Option UnknownKeywords := all.find? fun p => p.name == text

end UnknownKeywords

/-- The names that rules may mention, and the policy for unknown keywords. -/
structure Vocabulary where
  /-- The valid item classes. -/
  validClasses : List String
  /-- The valid base types. -/
  validBases : List String
  /-- The valid sounds. -/
  validSounds : List String
  /-- Item classes accepted besides the valid ones. -/
  classWhitelist : List String
  /-- Base types accepted besides the valid ones. -/
  baseWhitelist : List String
  /-- What to do with unknown keywords. -/
  unknownKeywords : UnknownKeywords
deriving DecidableEq, Repr

namespace Vocabulary

/-- The vocabulary without any name. -/
def empty : Vocabulary := ⟨[], [], [], [], [], .ignore⟩

/-- The item classes known without settings. -/
def builtinClasses : List String :=
  ["Active Skill Gems", "Amulets", "Belts", "Body Armours", "Boots", "Bows", "Claws", "Currency",
   "Daggers", "Divination Card", "Fishing Rods", "Gloves", "Helmets", "Hybrid Flasks", "Jewel",
   "Labyrinth Item", "Labyrinth Map Item", "Labyrinth Trinket", "Leaguestones", "Life Flasks",
   "Mana Flasks", "Map Fragments", "Maps", "One Hand Axes", "One Hand Maces", "One Hand Swords",
   "Pieces", "Quest Items", "Quivers", "Rings", "Sceptres", "Shields", "Stackable Currency",
   "Staves", "Support Skill Gems", "Thrusting One Hand Swords", "Two Hand Axes", "Two Hand Maces",
   "Two Hand Swords", "Utility Flasks", "Wands"]

/-- The sounds known without settings. -/
def builtinSounds : List String :=
  ["ShAlchemy", "ShBlessed", "ShChaos", "ShDivine", "ShExalted", "ShFusing", "ShGeneral",
   "ShMirror", "ShRegal", "ShVaal"]

/-- The vocabulary known without settings. It has no base types, since these change with every
patch of the game. -/
def builtin : Vocabulary :=
  { empty with validClasses := builtinClasses, validSounds := builtinSounds }

/-- Whether a name is an accepted item class. -/
def isClass (v : Vocabulary) (name : String) : Bool :=
  v.validClasses.elem name || v.classWhitelist.elem name

/-- Whether a name is an accepted base type. -/
def isBase (v : Vocabulary) (name : String) : Bool :=
  v.validBases.elem name || v.baseWhitelist.elem name

/-- Whether a name is an accepted sound. -/
def isSound (v : Vocabulary) (name : String) : Bool := v.validSounds.elem name

/-- The valid names, followed by the white-listed ones that are not among them. -/
def offer (valid whitelist : List String) : List String :=
  valid ++ whitelist.filter fun name => !valid.elem name

/-- The item classes to offer. -/
def classes (v : Vocabulary) : List String := offer v.validClasses v.classWhitelist

/-- The base types to offer. -/
def bases (v : Vocabulary) : List String := offer v.validBases v.baseWhitelist

/-- The sounds to offer. -/
def sounds (v : Vocabulary) : List String := v.validSounds

end Vocabulary

/-- The two kinds of names that a rule may list. -/
inductive Lexicon where
  | classes
  | bases
deriving DecidableEq, Repr

namespace Lexicon

/-- Whether a vocabulary accepts a name of this kind. -/
def accepts : Lexicon → Vocabulary → String → Bool
  | classes, v, name => v.isClass name
  | bases, v, name => v.isBase name

/-- What one name of this kind is called. -/
def noun : Lexicon → String
  | classes => "item class"
  | bases => "base type"

end Lexicon

end ItemFilter
