import Openheim.Core.Error
import Openheim.Library.RawLines
import Openheim.Library.SortedMap
import Openheim.Library.Utf8

/-
This file follows `save_theme_to_config_at` of `src/config/mod.rs`, which edits a configuration as
text.
-/

namespace Openheim.Config

inductive TomlValue where
  | string (text : String)
  | integer (value : Int)
  | float (value : Float)
  | boolean (value : Bool)
  | datetime (text : String)
  | array (items : List TomlValue)
  | table (entries : List (String × TomlValue))

/-- A table is ordered by its keys. -/
abbrev TomlTable := List (String × TomlValue)

mutual

/-- The values are equal. Floating-point numbers are compared as numbers, so that the one that is no
number differs from itself. -/
def TomlValue.same : TomlValue → TomlValue → Bool
  | .string a, .string b => a = b
  | .integer a, .integer b => a = b
  | .float a, .float b => a == b
  | .boolean a, .boolean b => a = b
  | .datetime a, .datetime b => a = b
  | .array a, .array b => sameItems a b
  | .table a, .table b => sameEntries a b
  | _, _ => false

def sameItems : List TomlValue → List TomlValue → Bool
  | [], [] => true
  | a :: as, b :: bs => a.same b && sameItems as bs
  | _, _ => false

def sameEntries : List (String × TomlValue) → List (String × TomlValue) → Bool
  | [], [] => true
  | (key, a) :: as, (other, b) :: bs => key = other && a.same b && sameEntries as bs
  | _, _ => false

end

/-- The TOML library reads a text, and the language writes a string with its escapes. -/
structure TomlLibrary where
  parse : String → Except String TomlTable
  debug : String → String

/-- The text after a start that it has. -/
def afterStart (start text : List Char) : Option (List Char) :=
  if start.isPrefixOf text then some (text.drop start.length) else none

def trimStart (text : List Char) : List Char := text.dropWhile Lines.isWhitespace

/-- The name inside a line that is a table header, possibly followed by a comment. -/
def tableHeader (line : List Char) : Option (List Char) :=
  let line := Lines.trim line
  let brackets : List Char × List Char :=
    if ['[', '['].isPrefixOf line then (['[', '['], [']', ']']) else (['['], [']'])
  (afterStart brackets.1 line).bind fun rest =>
    (rest.tails.findIdx? fun tail => brackets.2.isPrefixOf tail).bind fun closing =>
      let after := trimStart (rest.drop (closing + brackets.2.length))
      if after.isEmpty || after.head? = some '#' then
        some (Lines.trim (rest.take closing)) else none

/-- The line is the header of the table `tui`, and not of an array of tables. -/
def isTuiHeader (line : List Char) : Bool :=
  !(['[', '['].isPrefixOf (trimStart line)) && tableHeader line = some "tui".toList

/-- The line assigns the key `theme_color`, and not one that only starts like it. -/
def isThemeColorLine (line : List Char) : Bool :=
  match afterStart "theme_color".toList (trimStart line) with
  | none => false
  | some rest => (trimStart rest).head? = some '='

/-- The change that saves a theme: a line is replaced, or a line is
inserted, or a table is appended. -/
inductive ThemeEdit where
  | replace (index : Nat)
  | insert (index : Nat)
  | append
  deriving DecidableEq, Repr

/-- The section of the table runs until the next header, and it may have a line for the theme. -/
def themeEdit (lines : List (List Char)) : ThemeEdit :=
  match lines.findIdx? isTuiHeader with
  | none => .append
  | some header =>
      let rest := lines.drop (header + 1)
      let size := (rest.findIdx? fun line => (tableHeader line).isSome).getD rest.length
      match (rest.take size).findIdx? isThemeColorLine with
      | some existing => .replace (header + 1 + existing)
      | none => .insert (header + 1 + size)

def ThemeEdit.apply (newLine : List Char) (lines : List (List Char)) : ThemeEdit → List (List Char)
  | .replace index => lines.set index newLine
  | .insert index => lines.insertIdx index newLine
  | .append => (if lines.isEmpty then [] else lines ++ [[]]) ++ ["[tui]".toList, newLine]

def themeLine (name : String) : List Char := "theme_color = \"".toList ++ name.toList ++ ['"']

/-- The lines of the text with the change, joined by newlines. -/
def editedText (name contents : String) : String :=
  let lines := Lines.lines contents.toList
  String.ofList (Lines.joinLines ((themeEdit lines).apply (themeLine name) lines)
    (Lines.isEnded contents.toList))

/-- The configuration with the theme, unless `tui` is something else than a table. -/
def withTheme (name : String) (config : TomlTable) : Option TomlTable :=
  match config.lookup "tui" with
  | none => some (SortedMap.insert "tui" (.table [("theme_color", .string name)]) config)
  | some (.table tui) =>
      some (SortedMap.insert "tui" (.table (SortedMap.insert "theme_color" (.string name) tui))
        config)
  | some _ => none

/-- A name may not break out of its string. -/
def isThemeName (name : String) : Bool := name.toList.all fun char => char ∉ ['"', '\\', '\n', '\r']

def invalidThemeName (toml : TomlLibrary) (name : String) : Error :=
  .configError ("invalid theme name " ++ toml.debug name ++
    ": quotes, backslashes, and newlines are not allowed")

def notATable : Error := .configError "`tui` in the config file is not a table"

def unsafeEdit (path name : String) : Error :=
  .configError ("couldn't safely set theme_color in " ++ path ++
    "; set `theme_color = \"" ++ name ++ "\"` under [tui] by hand")

/-- The edited text if it parses to the configuration with the theme. -/
def editTheme (toml : TomlLibrary) (path name contents : String) : Except Error String :=
  match toml.parse contents with
  | .error reason => .error (.tomlError reason)
  | .ok config =>
      match withTheme name config with
      | none => .error notATable
      | some expected =>
          match toml.parse (editedText name contents) with
          | .error _ => .error (unsafeEdit path name)
          | .ok edited =>
              if sameEntries edited expected then .ok (editedText name contents)
              else .error (unsafeEdit path name)

/-- What becomes of a write, which first empties the file: it is refused at
once, or fails after some bytes. -/
inductive FileWrite where
  | complete
  | refused
  | cut (size : Nat)
  deriving DecidableEq, Repr

/-- The bytes of a file as a text. -/
def readToString (file : Option (List UInt8)) : Except Error String :=
  match file.bind Utf8.decode with
  | some text => .ok (String.ofList text)
  | none => .error .ioError

/-- Sets the theme in the configuration file, which is missing or has bytes. -/
def saveThemeToConfigAt (toml : TomlLibrary) (path name : String) (write : FileWrite)
    (file : Option (List UInt8)) :
    Except Error Unit × Option (List UInt8) :=
  if !isThemeName name then (.error (invalidThemeName toml name), file)
  else
    match readToString file with
    | .error error => (.error error, file)
    | .ok contents =>
        match editTheme toml path name contents with
        | .error error => (.error error, file)
        | .ok edited =>
            match write with
            | .complete => (.ok (), some (Utf8.encode edited.toList))
            | .refused => (.error .ioError, file)
            | .cut size => (.error .ioError, some ((Utf8.encode edited.toList).take size))

end Openheim.Config
