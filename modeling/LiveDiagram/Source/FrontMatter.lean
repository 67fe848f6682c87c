import LiveDiagram.Flowchart.Basic
import LiveDiagram.Text.Lines

namespace LiveDiagram

open Text

/-- What a block of settings holds once it was read as YAML. The settings are
    the entries of a mapping; nothing is made of a block that is empty or holds
    anything else. -/
inductive Yaml where
  | null
  /-- The entries in their order. A key that is no text is `none`, and so is a
      value that is no scalar. -/
  | mapping (entries : List (Option String × Option String))
  | other
  deriving DecidableEq, Repr

/-- A reader of YAML. Which blocks it can read and what it finds in them is left
    open: a diagram is read with whatever reader is at hand, and what is proved
    of diagrams is proved for all readers. -/
class YamlReader where
  /-- What the block holds, if it can be read. -/
  load? (block : List Char) : Option Yaml

namespace Yaml

/-- Whether the text is a word that YAML takes for a scalar, whatever else the
    block holds. -/
def isPlainWord (s : List Char) : Bool :=
  !s.isEmpty && s.all isWordChar && lower s != "null".toList

/-- The entry of a line `key: value` of two words. -/
def entry? (line : List Char) : Option (Option String × Option String) :=
  match splitOn ':' line with
  | [key, ' ' :: value] =>
    if isPlainWord key && isPlainWord value then
      some (some (String.ofList key), some (String.ofList value))
    else
      none
  | _ => none

end Yaml

/-- Reads the plainest blocks, in which every line gives one word for another,
    as any reader of YAML does. It fails on all others, and stands in where no
    other reader is at hand. -/
instance (priority := low) YamlReader.words : YamlReader where
  load? block := if block.isEmpty then some .null else ((lines block).mapM Yaml.entry?).map .mapping

namespace Config

/-- The settings with one more entry of a mapping. Of entries with the same key
    the last one counts, a value that is no scalar is passed over, and a key
    that is no text makes all settings void. -/
def add? (config : Config) : Option String × Option String → Option Config
  | (none, _) => none
  | (some _, none) => some config
  | (some key, some value) => some (config.insert key value)

/-- The settings in a block that was read. -/
def ofYaml : Yaml → Config
  | .mapping entries => (entries.foldlM add? ∅).getD ∅
  | .null | .other => ∅

end Config

/-- The lines of a text that opens with a closed block of settings. Such a block
    stands between two `---` lines, which only blank lines may precede. An
    opening line that no later line closes opens nothing. -/
structure FrontMatter where
  /-- The blank lines before the block. -/
  before : List (List Char)
  opening : List Char
  settings : List (List Char)
  closing : List Char
  /-- The lines after the block. -/
  body : List (List Char)
  deriving DecidableEq, Repr

namespace FrontMatter

/-- Whether the line opens or closes a block of settings. -/
def isDelimiter (line : List Char) : Bool :=
  trim line == ['-', '-', '-']

/-- Whether there is nothing but blanks on the line. -/
def isBlankLine (line : List Char) : Bool :=
  (trim line).isEmpty

/-- The block that the lines open with. -/
def ofLines? (ls : List (List Char)) : Option FrontMatter :=
  match ls.dropWhile isBlankLine with
  | [] => none
  | opening :: rest =>
    if isDelimiter opening then
      match rest.dropWhile fun line => !isDelimiter line with
      | [] => none
      | closing :: body =>
        some { before := ls.takeWhile isBlankLine, opening
               settings := rest.takeWhile fun line => !isDelimiter line
               closing, body }
    else
      none

/-- All lines, the block included. -/
def toLines (m : FrontMatter) : List (List Char) :=
  m.before ++ m.opening :: m.settings ++ m.closing :: m.body

/-- The setting that pins nodes to their stored places. -/
def fixedLayout : List Char :=
  "layout: fixed".toList

/-- The settings with the layout pinned: the first line that sets the layout is
    replaced, or else the setting comes last. -/
def pin : List (List Char) → List (List Char)
  | [] => [fixedLayout]
  | line :: ls =>
    if (after? "layout:".toList (trim line)).isSome then fixedLayout :: ls else line :: pin ls

/-- The settings in the block. There are none if the block cannot be read. -/
def config [YamlReader] (m : FrontMatter) : Config :=
  ((YamlReader.load? (joinLines m.settings)).map Config.ofYaml).getD ∅

end FrontMatter

/-- The settings in the block that the lines open with. There are none without a
    block. -/
def Config.ofLines [YamlReader] (ls : List (List Char)) : Config :=
  ((FrontMatter.ofLines? ls).map FrontMatter.config).getD ∅

/-- The lines of a text after its block of settings, if it opens with one. -/
def bodyLines (ls : List (List Char)) : List (List Char) :=
  ((FrontMatter.ofLines? ls).map FrontMatter.body).getD ls

/-- The trimmed lines that state something: not the blank ones, nor the
    comments, which `#` or `%%` starts. -/
def statements (ls : List (List Char)) : List (List Char) :=
  (ls.map trim).filter fun line =>
    !(line.isEmpty || line.head? == some '#' || (after? ['%', '%'] line).isSome)

/-- Whether the statements are those of a sequence diagram: the first one starts
    with `sequence`, in any case. -/
def isSequence (statements : List (List Char)) : Bool :=
  statements.head?.any fun line => (afterAnyCase? "sequence".toList line).isSome

/-- Whether the text is that of a sequence diagram. -/
def isSequenceText (text : List Char) : Bool :=
  isSequence (statements (bodyLines (lines text)))

/-- The text without its block of settings; a text without a block is kept as it
    is. -/
def withoutFrontMatter (text : List Char) : List Char :=
  match FrontMatter.ofLines? (lines text) with
  | none => text
  | some m => joinLines m.body

/-- The text with the lines of its block of settings removed and the blank lines
    before it kept. -/
def removeFrontMatter (text : List Char) : List Char :=
  match FrontMatter.ofLines? (lines text) with
  | none => text
  | some m => joinLines (m.before ++ m.body)

/-- The text of a flowchart with the layout pinned in its block of settings, in
    a block of its own if there is none. The text of a sequence diagram, and one
    that holds the setting anywhere, is kept as it is. -/
def pinLayout (text : List Char) : List Char :=
  if occursIn FrontMatter.fixedLayout text || isSequenceText text then
    text
  else
    match FrontMatter.ofLines? (lines text) with
    | some m => joinLines { m with settings := FrontMatter.pin m.settings }.toLines
    | none => "---\n".toList ++ FrontMatter.fixedLayout ++ "\n---\n\n".toList ++ text

end LiveDiagram
