import FileProvider.Fs.Stat

/-!
# Columns

A query asks for columns by name. Most are fields of the stat record; two are parts of the path; any
other name asks for nothing and is answered by an empty text.
-/

set_option autoImplicit false

namespace FileProvider

/-- A field of a stat record that can be asked for. -/
inductive StatField where
  | ino
  | mode
  | uid
  | gid
  | size
  | atime
  | mtime
  | ctime
deriving DecidableEq, Repr, Inhabited

/-- The value of a field, as text. -/
def Stat.valueOf (s : Stat) : StatField → String
  | .ino => toString s.ino.toNat
  | .mode => toString s.mode.toNat
  | .uid => toString s.uid.toNat
  | .gid => toString s.gid.toNat
  | .size => toString s.size.toNat
  | .atime => toString s.accessed.seconds
  | .mtime => toString s.modified.seconds
  | .ctime => toString s.changed.seconds

/-- What one column of a query asks for. -/
inductive Column where
  /-- A field of the stat record. -/
  | stat (field : StatField)
  /-- The last name of the path. -/
  | displayName
  /-- The path up to its last name. -/
  | relativePath
  /-- Nothing. -/
  | unknown
deriving DecidableEq, Repr, Inhabited

/-- The column with a given name. -/
def Column.ofName : String → Column
  | "ino" => .stat .ino
  | "mode" => .stat .mode
  | "uid" => .stat .uid
  | "gid" => .stat .gid
  | "size" => .stat .size
  | "atime" => .stat .atime
  | "mtime" => .stat .mtime
  | "ctime" => .stat .ctime
  | "display_name" => .displayName
  | "relative_path" => .relativePath
  | _ => .unknown

end FileProvider
