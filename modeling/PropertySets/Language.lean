import PropertySets.Text.Ascii
import PropertySets.Text.Blank

/-!
# Languages

The closed set of languages that localized names can be exported in. A locale tag is matched
without regard to case and surrounding blanks; a tag outside the table is unknown.
-/

namespace PropertySets

/-- A language of localized names. -/
inductive Language where
  | englishUSA
  | japanese
  | korean
  | chineseSimplified
  | chineseTraditional
  | french
  | german
  | spanish
  | italian
  | dutch
  | russian
  | czech
  | polish
  | hungarian
  | brazilianPortuguese
  | unknown
  deriving DecidableEq, Repr

namespace Language

/-- The locale tags of each language, in small letters. -/
def tags : List (String × Language) := [
  ("en-us", englishUSA), ("en", englishUSA),
  ("ja-jp", japanese), ("ja", japanese),
  ("ko-kr", korean), ("ko", korean),
  ("zh-cn", chineseSimplified), ("zh-sg", chineseSimplified), ("zh-hk", chineseSimplified),
  ("zh-tw", chineseTraditional),
  ("fr-fr", french), ("fr", french),
  ("de-de", german), ("de", german),
  ("es", spanish), ("it", italian), ("nl", dutch), ("ru", russian), ("cs", czech),
  ("pl", polish), ("hu", hungarian), ("pt-br", brazilianPortuguese)]

/-- The language of a locale tag. -/
def ofTag (tag : String) : Language :=
  (tags.lookup (Text.asciiLower (Text.trim tag))).getD unknown

/-- The name of a language in generated code. -/
def name : Language → String
  | englishUSA => "English_USA"
  | japanese => "Japanese"
  | korean => "Korean"
  | chineseSimplified => "Chinese_Simplified"
  | chineseTraditional => "Chinese_Traditional"
  | french => "French"
  | german => "German"
  | spanish => "Spanish"
  | italian => "Italian"
  | dutch => "Dutch"
  | russian => "Russian"
  | czech => "Czech"
  | polish => "Polish"
  | hungarian => "Hungarian"
  | brazilianPortuguese => "Brazilian_Portuguese"
  | unknown => "Unknown"

/-- Is the language in the closed set? -/
def isKnown (l : Language) : Bool := l != unknown

end Language

end PropertySets
