import Treewalk.Text.Cluster
import Treewalk.Text.Size

/-! # Typed text

A line that was typed may hold backspaces, each of which takes back the cluster in front of it. What
is typed falls into clusters first, so a mark behind a backspace does not become part of what is
left.

This is what a line editor does with a line before the prompt sees it. It stands for a third-party
part (rustyline), so it is here to be run, and nothing is proved about it. -/

namespace Treewalk.Text

/-- The backspace. -/
def backspace : Char := '\x08'

/-- A line while it is typed: the characters that are left, nearest first, and the sizes of the
clusters that they came in, nearest first. A size is kept in one byte. -/
structure Typing where
  kept : List Char
  sizes : List UInt8
deriving DecidableEq

namespace Typing

/-- Nothing has been typed. -/
def empty : Typing := ⟨[], []⟩

/-- Takes characters away until they make up a number of bytes. -/
def dropBytes : Nat → List Char → List Char
  | 0, text => text
  | _, [] => []
  | n + 1, c :: rest => dropBytes (n + 1 - c.utf8Size) rest

/-- Types a cluster. A backspace takes away as many bytes as the size of the last cluster says,
which of a cluster with more bytes than a size can tell is only a part; without a cluster it does
nothing. -/
def type (t : Typing) (cluster : List Char) : Typing :=
  if cluster = [backspace] then
    match t.sizes with
    | [] => t
    | size :: sizes => ⟨dropBytes size.toNat t.kept, sizes⟩
  else ⟨cluster.reverse ++ t.kept, UInt8.ofNat (byteSize cluster) :: t.sizes⟩

end Typing

/-- What a typed line reads in the end. -/
def typed (line : List Char) : List Char := ((clusters line).foldl Typing.type .empty).kept.reverse

end Treewalk.Text
