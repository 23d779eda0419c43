/-!
# Finding and cutting text

Searches over the characters of a text, all of them by recursion on the list of characters:
the first occurrence of a separator, the part after the last slash, the first whole segment.
-/

set_option autoImplicit false

namespace FileProvider.Text

/-- Splits at the first occurrence of `sep`, which is dropped. -/
def breakOn? (sep : List Char) : List Char → Option (List Char × List Char)
  | [] => if sep = [] then some ([], []) else none
  | c :: rest =>
    match sep.isPrefixOf? (c :: rest) with
    | some after => some ([], after)
    | none => (breakOn? sep rest).map fun (before, after) => (c :: before, after)

/-- The text after its last slash; the whole text if it has none. -/
def afterLastSlash (s : List Char) : List Char :=
  (s.reverse.takeWhile (· ≠ '/')).reverse

/-- The text up to and including its last slash; nothing if it has none. -/
def throughLastSlash (s : List Char) : List Char :=
  (s.reverse.dropWhile (· ≠ '/')).reverse

/-- Drops one slash from the end, if there is one. -/
def chopSlash (s : List Char) : List Char :=
  if s.getLast? = some '/' then s.dropLast else s

/-- Drops every slash from the end. -/
def chopSlashes (s : List Char) : List Char :=
  (s.reverse.dropWhile (· = '/')).reverse

/-- Whether a text begins where a segment can end: at its end or at a slash. -/
def atSegmentEnd : List Char → Bool
  | [] => true
  | c :: _ => c = '/'

/-- Removes the first occurrence of `needle` that ends at a segment boundary. -/
def dropSegment (needle : List Char) : List Char → List Char
  | [] => []
  | c :: rest =>
    match needle.isPrefixOf? (c :: rest) with
    | some after => if atSegmentEnd after then after else c :: dropSegment needle rest
    | none => c :: dropSegment needle rest

/-- The pieces between the occurrences of a separator: one more than there are of them, empty ones
included. -/
def pieces {α : Type} [DecidableEq α] (sep : α) : List α → List (List α)
  | [] => [[]]
  | c :: rest =>
    if c = sep then [] :: pieces sep rest
    else match pieces sep rest with
      | p :: ps => (c :: p) :: ps
      | [] => [[c]]

/-- Drops the characters that satisfy `p` from both ends. -/
def trim (p : Char → Bool) (s : List Char) : List Char :=
  ((s.dropWhile p).reverse.dropWhile p).reverse

end FileProvider.Text
