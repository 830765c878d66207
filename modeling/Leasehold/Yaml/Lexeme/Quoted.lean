import Leasehold.Yaml.Lexeme.Folding

/-!
# Quoted scalars

Between single quotes only the quote itself is written twice; between double
quotes a backslash starts an escape, and one before a line end joins the lines.
-/

namespace Leasehold
namespace Yaml
namespace Quotation

/-- The character of an escape of one letter. -/
def escaped? (c : Char) : Option Char :=
  match c with
  | '0' => some (Char.ofNat 0)
  | 'a' => some (Char.ofNat 7)
  | 'b' => some (Char.ofNat 8)
  | 't' => some '\t'
  | '\t' => some '\t'
  | 'n' => some '\n'
  | 'v' => some (Char.ofNat 11)
  | 'f' => some (Char.ofNat 12)
  | 'r' => some '\r'
  | 'e' => some (Char.ofNat 27)
  | ' ' => some ' '
  | '"' => some '"'
  | '/' => some '/'
  | '\\' => some '\\'
  | 'N' => some (Char.ofNat 0x85)
  | '_' => some (Char.ofNat 0xA0)
  | 'L' => some (Char.ofNat 0x2028)
  | 'P' => some (Char.ofNat 0x2029)
  | _ => none

/-- How many hexadecimal digits follow the letter of an escape. -/
def codeLength? (c : Char) : Option Nat :=
  match c with
  | 'x' => some 2
  | 'u' => some 4
  | 'U' => some 8
  | _ => none

/-- The character of an escape, given what follows the backslash, and the length of the whole. -/
def escape? (rest : List Char) : Option (Char × Nat) :=
  match rest with
  | [] => none
  | c :: digits =>
    match escaped? c, codeLength? c with
    | some ch, _ => some (ch, 2)
    | none, none => none
    | none, some length =>
      let code := digits.take length
      if code.length < length then none
      else
        match Numeral.readDigits? 16 code with
        | none => none
        | some n =>
          if (0xD800 ≤ n ∧ n ≤ 0xDFFF) ∨ 0x10FFFF < n then none
          else some (Char.ofNat n, 2 + length)

/-- Reads the characters up to the next blank or the closing quote, and says whether an escaped
line end stopped it. -/
def run (quote : Char) : Nat → List Char → Cursor → Option (List Char × Bool × Cursor)
  | 0, _, _ => none
  | fuel + 1, acc, c =>
    match c.rest with
    | [] => some (acc.reverse, false, c)
    | ch :: rest =>
      if isGap ch || isBreak ch then some (acc.reverse, false, c)
      else if ch == quote then
        if quote == '\'' && rest.head? == some '\'' then run quote fuel ('\'' :: acc) (c.skip 2)
        else some (acc.reverse, false, c)
      else if quote == '"' && ch == '\\' then
        if rest.head?.any isBreak then some (acc.reverse, true, (c.skip 1).skipBreak)
        else
          match escape? rest with
          | some (e, length) => run quote fuel (e :: acc) (c.skip length)
          | none => none
      else run quote fuel (ch :: acc) (c.skip 1)

/-- Reads up to the closing quote. -/
def runs (quote : Char) (fuel : Nat) : Nat → List Char → Cursor → Option (List Char × Cursor)
  | 0, _, _ => none
  | more + 1, acc, c =>
    if c.atAnyMarker || c.atEnd then none
    else
      match run quote fuel [] c with
      | none => none
      | some (part, joined, c) =>
        let acc := acc ++ part
        if c.sees quote then some (acc, c.skip 1)
        else
          match Gap.read (fun _ => true) fuel { Gap.none with broken := joined } c with
          | none => none
          | some (gap, c) => runs quote fuel more (acc ++ gap.fold) c

/-- The scalar whose opening quote is at the cursor, and the cursor past its closing quote. -/
def read (quote : Char) (c : Cursor) : Option (List Char × Cursor) :=
  let fuel := c.rest.length + 1
  runs quote fuel fuel [] (c.skip 1)

end Quotation
end Yaml
end Leasehold
