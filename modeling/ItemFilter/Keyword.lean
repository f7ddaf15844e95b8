/-!
# Keywords

The words with which the rows of a filter start: the two block headers, the conditions that select
items and the actions that style them. Keywords are spelled exactly; case matters.
-/

namespace ItemFilter

/-- What a block does with the items that it matches. -/
inductive Visibility where
  | shown
  | hidden
deriving DecidableEq, Repr

namespace Visibility

/-- Both block headers. -/
def all : List Visibility := [shown, hidden]

/-- The keyword of a block header. -/
def name : Visibility → String
  | shown => "Show"
  | hidden => "Hide"

/-- The block header with this keyword. -/
def ofName? (text : String) : Option Visibility := all.find? fun v => v.name == text

end Visibility

/-- A rule that decides which items a block matches. -/
inductive Condition where
  | itemLevel
  | dropLevel
  | quality
  | sockets
  | linkedSockets
  | height
  | width
  | socketGroup
  | rarity
  | itemClass
  | baseType
  | identified
  | corrupted
  | elderItem
  | shaperItem
  | shapedMap
  | elderMap
deriving DecidableEq, Repr

namespace Condition

/-- All conditions. -/
def all : List Condition :=
  [itemLevel, dropLevel, quality, sockets, linkedSockets, height, width, socketGroup, rarity,
   itemClass, baseType, identified, corrupted, elderItem, shaperItem, shapedMap, elderMap]

/-- The keyword of a condition. -/
def name : Condition → String
  | itemLevel => "ItemLevel"
  | dropLevel => "DropLevel"
  | quality => "Quality"
  | sockets => "Sockets"
  | linkedSockets => "LinkedSockets"
  | height => "Height"
  | width => "Width"
  | socketGroup => "SocketGroup"
  | rarity => "Rarity"
  | itemClass => "Class"
  | baseType => "BaseType"
  | identified => "Identified"
  | corrupted => "Corrupted"
  | elderItem => "ElderItem"
  | shaperItem => "ShaperItem"
  | shapedMap => "ShapedMap"
  | elderMap => "ElderMap"

/-- The condition with this keyword. -/
def ofName? (text : String) : Option Condition := all.find? fun c => c.name == text

end Condition

/-- A rule that decides how matched items look and sound. -/
inductive Action where
  | setBorderColor
  | setTextColor
  | setBackgroundColor
  | playAlertSound
  | playAlertSoundPositional
  | setFontSize
  | disableDropSound
  | customAlertSound
deriving DecidableEq, Repr

namespace Action

/-- All actions. -/
def all : List Action :=
  [setBorderColor, setTextColor, setBackgroundColor, playAlertSound, playAlertSoundPositional,
   setFontSize, disableDropSound, customAlertSound]

/-- The keyword of an action. -/
def name : Action → String
  | setBorderColor => "SetBorderColor"
  | setTextColor => "SetTextColor"
  | setBackgroundColor => "SetBackgroundColor"
  | playAlertSound => "PlayAlertSound"
  | playAlertSoundPositional => "PlayAlertSoundPositional"
  | setFontSize => "SetFontSize"
  | disableDropSound => "DisableDropSound"
  | customAlertSound => "CustomAlertSound"

/-- The action with this keyword. -/
def ofName? (text : String) : Option Action := all.find? fun a => a.name == text

end Action

/-- The name of a rule: a condition or an action. -/
inductive RuleName where
  | condition (condition : Condition)
  | action (action : Action)
deriving DecidableEq, Repr

namespace RuleName

/-- The keyword of a rule. -/
def name : RuleName → String
  | condition c => c.name
  | action a => a.name

/-- The rule with this keyword. -/
def ofName? (text : String) : Option RuleName :=
  ((Condition.ofName? text).map condition).or ((Action.ofName? text).map action)

end RuleName

/-- A word with which a row can start. -/
inductive Keyword where
  | block (visibility : Visibility)
  | rule (name : RuleName)
deriving DecidableEq, Repr

namespace Keyword

/-- The keyword that is spelled so. -/
def ofName? (text : String) : Option Keyword :=
  ((Visibility.ofName? text).map block).or ((RuleName.ofName? text).map rule)

end Keyword

/-- The rarity of an item. -/
inductive Rarity where
  | normal
  | magic
  | rare
  | unique
deriving DecidableEq, Repr

namespace Rarity

/-- All rarities, from the most common. -/
def all : List Rarity := [normal, magic, rare, unique]

/-- The name of a rarity. -/
def name : Rarity → String
  | normal => "Normal"
  | magic => "Magic"
  | rare => "Rare"
  | unique => "Unique"

/-- The rarity with this name. -/
def ofName? (text : String) : Option Rarity := all.find? fun r => r.name == text

/-- The rarity whose name differs from the text at most in the case of ASCII letters. -/
def closest? (text : String) : Option Rarity :=
  all.find? fun r => r.name.toList.map Char.toLower == text.toList.map Char.toLower

end Rarity

end ItemFilter
