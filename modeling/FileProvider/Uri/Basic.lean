import FileProvider.Text.Search

/-!
# URIs

A URI names an entry as `scheme://authority/path`. `Uri.split?` cuts a text at its first `://`;
an authority is split off only when a slash follows it, so `scheme://host` has the path `host`.
`Uri.text` puts the three parts together again.
-/

set_option autoImplicit false

namespace FileProvider

/-- The three parts of a URI. -/
structure Uri where
  /-- What stands before the first separator. -/
  scheme : String
  /-- The routing part before the path; empty if there is none. -/
  authority : String
  /-- The rest, with its leading slash. -/
  path : String
deriving DecidableEq, Repr, Inhabited

namespace Uri

/-- What stands between the scheme and the rest. -/
def separator : String := "://"

/-- Cuts the text after the separator into authority and path. -/
def splitAuthority (rest : List Char) : List Char × List Char :=
  let host := rest.takeWhile (· ≠ '/')
  let path := rest.dropWhile (· ≠ '/')
  if path = [] then ([], rest) else (host, path)

/-- Cuts a text at its first separator; a text without one is not a URI. -/
def split? (raw : String) : Option Uri :=
  (Text.breakOn? separator.toList raw.toList).map fun (scheme, rest) =>
    let (authority, path) := splitAuthority rest
    ⟨String.ofList scheme, String.ofList authority, String.ofList path⟩

/-- Everything after the separator. -/
def remainder (u : Uri) : String := u.authority ++ u.path

/-- The URI as text. -/
def text (u : Uri) : String := u.scheme ++ separator ++ u.authority ++ u.path

end Uri

end FileProvider
