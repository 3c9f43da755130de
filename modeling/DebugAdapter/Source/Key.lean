import DebugAdapter.Text.Blank
import DebugAdapter.Text.Split
import DebugAdapter.Text.Utf8
import DebugAdapter.Text.Ascii
/-!
# Source keys

Clients name one script in several ways: `magic-api:/api/user/list.ms`, `/api%2Fuser%2Flist.ms`,
`api/user/list.ms`, or with the request mapping that a tree view appends, as in
`list(/user/list).ms`. `SourceKey.normalize` maps them all to one key. It repeats one pass
until nothing changes; `weight` bounds the number of passes.

`SourceKey.withoutKind` is the key without its leading resource type, and `SourceKey.clientPath`
the name under which the client is shown a script.
-/

namespace DebugAdapter.SourceKey

/-- The scheme of the paths that the client is shown. -/
def scheme : List Char :=
  "magic-api:".toList

/-- The extension of scripts. -/
def extension : List Char :=
  ".ms".toList

/-- The leading segments that name a resource type. -/
def kinds : List String :=
  ["api/", "function/", "datasource/", "task/"]

/-- The bytes with each well-formed `%XX` replaced by the byte it names. -/
def percentBytes : Bytes → Bytes
  | 0x25 :: a :: b :: bs =>
    match Ascii.hexValue? a, Ascii.hexValue? b with
    | some x, some y => UInt8.ofNat (x * 16 + y) :: percentBytes bs
    | _, _ => 0x25 :: percentBytes (a :: b :: bs)
  | b :: bs => b :: percentBytes bs
  | [] => []

/-- The text with its escapes decoded, or as it is when the result would not be UTF-8. -/
def percentDecode (cs : List Char) : List Char :=
  (Utf8.decode? (percentBytes (Utf8.encode cs))).getD cs

/-- The text up to its first parenthesis, with the extension that would be cut off. -/
def dropMapping (cs : List Char) : List Char :=
  match Text.cutAt? '(' cs with
  | none => cs
  | some (before, _) =>
    if !extension.isSuffixOf before && Text.occursIn extension cs then before ++ extension
    else before

/-- The text without one leading scheme. -/
def dropScheme (cs : List Char) : List Char :=
  (Text.afterPrefix? scheme cs).getD cs

/-- One pass: scheme, escapes, leading slashes, request mapping and blanks, in this order. -/
def pass (cs : List Char) : List Char :=
  Text.trimChars (dropMapping ((percentDecode (dropScheme cs)).dropWhile (· = '/')))

/-- Repeats the pass until nothing changes, at most `fuel` times. -/
def passes : (fuel : Nat) → List Char → List Char
  | 0, cs => cs
  | fuel + 1, cs => if pass cs = cs then cs else passes fuel (pass cs)

/-- A number that every pass that changes the text makes smaller. -/
def weight (cs : List Char) : Nat :=
  3 * (cs.count '%' + cs.count '(') + cs.length

/-- The key of a client's path. -/
def normalize (path : String) : String :=
  String.ofList (passes (weight path.toList) path.toList)

/-- The key without leading slashes and then without its resource type. -/
def withoutKind (key : String) : String :=
  let cs := key.toList.dropWhile (· = '/')
  String.ofList ((kinds.findSome? fun kind => Text.afterPrefix? kind.toList cs).getD cs)

/-- The path that the client is shown for a key. -/
def clientPath (key : String) : String :=
  String.ofList (scheme ++ '/' :: key.toList)

end DebugAdapter.SourceKey
