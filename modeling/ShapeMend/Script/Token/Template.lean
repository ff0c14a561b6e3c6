import ShapeMend.Script.Token.Gap
import ShapeMend.Script.Token.Quoted

/-!
# Template literals

A template runs to its closing backquote.  Its substitutions may hold braces,
strings, comments and further templates, each of which hides the closing
characters inside it.  Both scans below count characters from the start of the
outermost template, and answer the count after the closing character.
-/

namespace ShapeMend.Script.Template

mutual

def body (start here : Nat) : List Char → Except Fault Nat
  | [] => .error ⟨start, .unterminatedTemplate⟩
  | '`' :: _ => .ok (here + 1)
  | ['\\'] => .error ⟨start, .unterminatedTemplate⟩
  | '\\' :: _ :: rest => body start (here + 2) rest
  | '$' :: '{' :: rest => do
    let stop ← substitution start (here + 2) 0 rest
    body start stop (rest.drop (stop - (here + 2)))
  | _ :: rest => body start (here + 1) rest
termination_by s => s.length

def substitution (start here depth : Nat) : List Char → Except Fault Nat
  | [] => .error ⟨start, .unterminatedTemplate⟩
  | '{' :: rest => substitution start (here + 1) (depth + 1) rest
  | '}' :: rest =>
    match depth with
    | 0 => .ok (here + 1)
    | depth + 1 => substitution start (here + 1) depth rest
  | '`' :: rest => do
    let stop ← body here (here + 1) rest
    substitution start stop depth (rest.drop (stop - (here + 1)))
  | c :: rest =>
    if Quoted.isQuote c then
      match Quoted.body c rest with
      | .error flaw => .error ⟨here, flaw⟩
      | .ok (n, _) => substitution start (here + 1 + n) depth (rest.drop n)
    else if c = '/' ∧ (rest.head? = some '/' ∨ rest.head? = some '*') then
      match Gap.length .blank (c :: rest) with
      | 0 => .error ⟨here, .unterminatedComment⟩
      | n + 1 => substitution start (here + 1 + n) depth (rest.drop n)
    else substitution start (here + 1) depth rest
termination_by s => s.length

end

end ShapeMend.Script.Template
