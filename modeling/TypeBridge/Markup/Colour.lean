import TypeBridge.Text.Digit
/-!
# TypeBridge — colours

The words for a colour in markup: a name of the usual palette, six hexadecimal
digits, a palette entry by number, or the amounts of red, green and blue.
-/

namespace TypeBridge

namespace Markup

/-- Why a word says nothing of a style. -/
inductive StyleError
  | unknown
  /-- One of the amounts of a colour has no digits. -/
  | missingAmount
deriving DecidableEq

namespace Colour

/-- The colours that every terminal has. -/
def primary : List String :=
  ["default", "black", "red", "green", "yellow", "blue", "magenta", "cyan", "white",
    "bright_black", "bright_red", "bright_green", "bright_yellow", "bright_blue",
    "bright_magenta", "bright_cyan", "bright_white"]

/-- The other colours of the palette but the greys. -/
def palette : List String :=
  ["aquamarine1", "aquamarine3", "blue1", "blue3", "blue_violet", "cadet_blue", "chartreuse1",
    "chartreuse2", "chartreuse3", "chartreuse4", "cornflower_blue", "cornsilk1", "cyan1", "cyan2",
    "cyan3", "dark_blue", "dark_cyan", "dark_goldenrod", "dark_green", "dark_khaki",
    "dark_magenta", "dark_olive_green1", "dark_olive_green2", "dark_olive_green3", "dark_orange",
    "dark_orange3", "dark_red", "dark_sea_green", "dark_sea_green1", "dark_sea_green2",
    "dark_sea_green3", "dark_sea_green4", "dark_slate_gray1", "dark_slate_gray2",
    "dark_slate_gray3", "dark_turquoise", "dark_violet", "deep_pink1", "deep_pink2", "deep_pink3",
    "deep_pink4", "deep_sky_blue1", "deep_sky_blue2", "deep_sky_blue3", "deep_sky_blue4",
    "dodger_blue1", "dodger_blue2", "dodger_blue3", "gold1", "gold3", "green1", "green3",
    "green4", "green_yellow", "honeydew2", "hot_pink", "hot_pink2", "hot_pink3", "indian_red",
    "indian_red1", "khaki1", "khaki3", "light_coral", "light_cyan1", "light_cyan3",
    "light_goldenrod1", "light_goldenrod2", "light_goldenrod3", "light_green", "light_pink1",
    "light_pink3", "light_pink4", "light_salmon1", "light_salmon3", "light_sea_green",
    "light_sky_blue1", "light_sky_blue3", "light_slate_blue", "light_slate_gray",
    "light_slate_grey", "light_steel_blue", "light_steel_blue1", "light_steel_blue3",
    "light_yellow3", "magenta1", "magenta2", "magenta3", "medium_orchid", "medium_orchid1",
    "medium_orchid3", "medium_purple", "medium_purple1", "medium_purple2", "medium_purple3",
    "medium_purple4", "medium_spring_green", "medium_turquoise", "medium_violet_red",
    "misty_rose1", "misty_rose3", "navajo_white1", "navajo_white3", "navy_blue", "orange1",
    "orange3", "orange4", "orange_red1", "orchid", "orchid1", "orchid2", "pale_green1",
    "pale_green3", "pale_turquoise1", "pale_turquoise4", "pale_violet_red1", "pink1", "pink3",
    "plum1", "plum2", "plum3", "plum4", "purple", "purple3", "purple4", "red1", "red3",
    "rosy_brown", "royal_blue1", "salmon1", "sandy_brown", "sea_green1", "sea_green2",
    "sea_green3", "sky_blue1", "sky_blue2", "sky_blue3", "slate_blue1", "slate_blue3",
    "spring_green1", "spring_green2", "spring_green3", "spring_green4", "steel_blue",
    "steel_blue1", "steel_blue3", "tan", "thistle1", "thistle3", "turquoise2", "turquoise4",
    "violet", "wheat1", "wheat4", "yellow1", "yellow2", "yellow3", "yellow4"]

/-- The brightness of every grey of the palette, in hundredths. -/
def greys : List Nat :=
  [0, 3, 7, 11, 15, 19, 23, 27, 30, 35, 37, 39, 42, 46, 50, 53, 54, 58, 62, 63, 66, 69, 70, 74,
    78, 82, 84, 85, 89, 93, 100]

/-- Whether a word is the name of a grey. -/
def isGrey (word : String) : Bool :=
  greys.any fun amount => word = "grey" ++ toString amount || word = "gray" ++ toString amount

def isName (word : String) : Bool :=
  primary.contains word || palette.contains word || isGrey word

/-- What stands between a start and a closing bracket. -/
def within? (start : String) (word : List Char) : Option (List Char) :=
  match start.toList.isPrefixOf? word with
  | some rest => if rest.getLast? = some ')' then some rest.dropLast else none
  | none => none

def isHexDigit (c : Char) : Bool :=
  c.isDigit || ('a' ≤ c && c ≤ 'f')

/-- Whether digits give an amount of at most 255. -/
def isByte (digits : List Char) : Bool :=
  Text.ofDigits digits ≤ 255

/-- Amounts of red, green and blue. -/
def checkAmounts (text : List Char) : Except StyleError Unit :=
  match text.splitOn ',' with
  | [red, green, blue] =>
    if red.isEmpty ∨ green.isEmpty ∨ blue.isEmpty then .error .missingAmount
    else if isByte red ∧ isByte green ∧ isByte blue then .ok ()
    else .error .unknown
  | _ => .error .unknown

/-- Checks that a word in lower case is a colour. -/
def check (word : String) : Except StyleError Unit :=
  if isName word then .ok ()
  else
    match word.toList with
    | '#' :: digits =>
      if digits.length = 6 ∧ digits.all isHexDigit then .ok () else .error .unknown
    | letters =>
      match within? "color(" letters, within? "rgb(" letters with
      | some number, _ =>
        let isEntry := !number.isEmpty && number.length ≤ 3 && number.all Char.isDigit
        if isEntry && isByte number then .ok () else .error .unknown
      | none, some amounts =>
        let areAmounts := !amounts.isEmpty && amounts.all fun c => (Text.digit? c).isSome || c = ','
        if areAmounts then checkAmounts amounts else .error .unknown
      | none, none => .error .unknown

end Colour

end Markup

end TypeBridge
