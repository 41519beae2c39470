/-
Files by path: what a directory holds, and where a path that starts in it leads.

A path is followed part by part. An empty part and a single point stay in a directory, two points
leave for the directory above, and a name leads to a file, beyond which no part can go.
-/

import NeighbourGraph.Matrix.Table
import NeighbourGraph.Text.Line

namespace NeighbourGraph.Command

open NeighbourGraph.Text

/-- What is stored in a file. -/
inductive Stored where
  | bytes (content : ByteArray)
  | table (batches : List Batch)

/-- Why a file cannot be read. -/
inductive FileError where
  | notFound
  /-- A part follows the name of a file. -/
  | notDirectory
  | isDirectory
  | nameTooLong
  /-- The path holds the character that ends a name. -/
  | nameCutShort
  | notText
  deriving DecidableEq, Repr

def FileError.message : FileError → String
  | .notFound => "No such file or directory (os error 2)"
  | .notDirectory => "Not a directory (os error 20)"
  | .isDirectory => "Is a directory (os error 21)"
  | .nameTooLong => "File name too long (os error 36)"
  | .nameCutShort => "file name contained an unexpected NUL byte"
  | .notText => "stream did not contain valid UTF-8"

/-- What a path leads to. -/
inductive Place where
  /-- The directory that paths start in. -/
  | here
  /-- A directory outside, of whose files nothing is known. -/
  | outside
  | file (content : Stored)

/-- The files of a directory by name. -/
abbrev Directory := String → Option Stored

/-- What paths lead to. -/
abbrev Files := String → Except FileError Place

namespace Directory

/-- The most bytes of one name, and of a path. -/
def nameLimit : Nat := 255
def pathLimit : Nat := 4095

/-- One part further. -/
def follow (d : Directory) (place : Place) (part : List Char) : Except FileError Place :=
  match place with
  | .file _ => .error .notDirectory
  | .here | .outside =>
    if part = [] ∨ part = ['.'] then .ok place
    else if part = ['.', '.'] then .ok .outside
    else if nameLimit < (String.ofList part).utf8ByteSize then .error .nameTooLong
    else match place with
      | .here =>
        match d (String.ofList part) with
        | some content => .ok (.file content)
        | none => .error .notFound
      | _ => .error .notFound

/-- What a path leads to. A separator in front starts at the root, which is outside. -/
def find (d : Directory) : Files := fun path =>
  if path.isEmpty then .error .notFound
  else if path.toList.contains '\x00' then .error .nameCutShort
  else if pathLimit < path.utf8ByteSize then .error .nameTooLong
  else
    match path.toList.splitOn '/' with
    | [] :: rest => rest.foldlM d.follow .outside
    | parts => parts.foldlM d.follow .here

end Directory

/-- The text of a file. -/
def readText (files : Files) (path : String) : Except FileError String :=
  match files path with
  | .error e => .error e
  | .ok (.here) | .ok (.outside) => .error .isDirectory
  | .ok (.file (.table _)) => .error .notText
  | .ok (.file (.bytes content)) =>
    match String.fromUTF8? content with
    | some text => .ok text
    | none => .error .notText

end NeighbourGraph.Command
