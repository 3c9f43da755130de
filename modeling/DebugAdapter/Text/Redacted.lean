/-!
# Redacted messages

`redact` hides the values that a decoding message repeats: what stands between each pair of
double quotes, and what stands between the first pair of backticks. A quote without a partner
ends the work, and the rest of the message stands as it is.
-/

namespace DebugAdapter.Text

/-- What a hidden value is replaced with. -/
def redactedMark : List Char :=
  "<redacted>".toList

/-- The message with quoted parts replaced, and whether every quote found its partner. `held` is
what came since an open quote, latest first. -/
def redactQuoted : (held : Option (List Char)) → List Char → List Char × Bool
  | none, [] => ([], true)
  | some held, [] => (held.reverse, false)
  | none, c :: cs =>
    let (out, paired) := redactQuoted (if c = '"' then some [] else none) cs
    (c :: out, paired)
  | some held, c :: cs =>
    if c = '"' then
      let (out, paired) := redactQuoted none cs
      (redactedMark ++ c :: out, paired)
    else redactQuoted (some (c :: held)) cs

/-- The message with what stands between its first two backticks replaced. -/
def redactTicked (cs : List Char) : List Char :=
  match cs.span (· ≠ '\x60') with
  | (_, []) => cs
  | (before, _ :: rest) =>
    match rest.span (· ≠ '\x60') with
    | (_, []) => cs
    | (_, after) => before ++ '\x60' :: (redactedMark ++ after)

/-- A message without the values that it repeats. -/
def redact (message : String) : String :=
  let (out, paired) := redactQuoted none message.toList
  String.ofList (if paired then redactTicked out else out)

end DebugAdapter.Text
