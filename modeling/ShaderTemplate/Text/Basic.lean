/-!
# Texts

Everything this library reads is a text: file contents, paths, names, dictionary keys. A text is
the list of its characters, so that every function on texts is a recursion over the list and can be
reasoned about as one.

## Shape of the cuts

There are three ways to take a text apart at a character, and all of them drop the character
itself: `cut?` cuts once, at the first place; `segments` cuts at every place; `lines` cuts after
every line feed, as a file is read, which differs from `segments` in what it does at the end of
the text and before a line feed.
-/

namespace ShaderTemplate

/-- A text, as the list of its characters. -/
abbrev Text := List Char

namespace Text

/-- The text before the first `mark` and the text after it, if there is one. -/
def cut? (mark : Char) : Text → Option (Text × Text)
  | [] => none
  | c :: rest =>
    if c = mark then some ([], rest)
    else (cut? mark rest).map fun (before, after) => (c :: before, after)

/-- The pieces of a text between its `mark`s: always one more than there are marks. -/
def segments (mark : Char) : Text → List Text
  | [] => [[]]
  | c :: rest =>
    if c = mark then [] :: segments mark rest
    else
      match segments mark rest with
      | [] => [[c]]
      | first :: others => (c :: first) :: others

/-- The texts with one `mark` between neighbours. -/
def joined (mark : Char) : List Text → Text
  | [] => []
  | [last] => last
  | first :: others => first ++ mark :: joined mark others

/-- There is a piece even where there is no text. -/
theorem segments_ne_nil (mark : Char) (text : Text) : segments mark text ≠ [] := by
  cases text with
  | nil => simp [segments]
  | cons c rest =>
    simp only [segments]
    split
    · simp
    · split <;> simp

/-- Cutting a text at its marks loses nothing but the marks. -/
theorem joined_segments (mark : Char) (text : Text) :
    joined mark (segments mark text) = text := by
  induction text with
  | nil => rfl
  | cons c rest ih =>
    cases hs : segments mark rest with
    | nil => exact absurd hs (segments_ne_nil mark rest)
    | cons first others =>
      rw [hs] at ih
      by_cases h : c = mark
      · simp [segments, h, hs, joined, ih]
      · cases others <;> simp_all [segments, joined]

/-- A line as it stands before its line feed, without the carriage return of a two-character line
end. Only one carriage return belongs to the line end. -/
def dropCarriageReturn (line : Text) : Text :=
  if line.getLast? = some '\r' then line.dropLast else line

/-- The lines of a file. A line ends with a line feed or with a carriage return and a line feed;
the last line may lack its line end, and then keeps a carriage return it has. A file that ends with
a line end has no further empty line after it. -/
def lines (text : Text) : List Text :=
  let pieces := segments '\n' text
  let ended := pieces.dropLast.map dropCarriageReturn
  match pieces.getLast? with
  | some [] | none => ended
  | some last => ended ++ [last]

/-- How many line feeds a text has, which is the number of physical lines it ends. -/
def lineFeeds (text : Text) : Nat :=
  text.count '\n'

/-- What a text in double quotes holds. A lone quote is not a text in quotes. -/
def unquote? : Text → Option Text
  | '"' :: rest => if rest.getLast? = some '"' then some rest.dropLast else none
  | _ => none

/-- The text with double quotes around it, whatever it holds. -/
def enquote (text : Text) : Text :=
  '"' :: text ++ ['"']

theorem unquote?_enquote (text : Text) : unquote? (enquote text) = some text := by
  simp [enquote, unquote?]

end Text

end ShaderTemplate
