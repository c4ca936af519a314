import FormulaEdit.Pattern.Escape

/-!
# Character sets in patterns

A set stands between brackets.  A closing bracket is an ordinary character in
the first place, and a hyphen is one at the end.
-/

namespace FormulaEdit.Pattern

/-- The entry that a token of a set stands for; it has been passed over. -/
def setItem (token : List Char) (cursor : Cursor) : Except Located (SetItem × Cursor) :=
  match token with
  | ['\\', c] => readSetEscape c cursor
  | c :: _ => .ok (.code c.toNat, cursor)
  | [] => .ok (.code 0, cursor)

/-- The range between two entries, as they are written. -/
def setRange (low high : SetItem) (lowToken highToken : List Char) (cursor : Cursor) :
    Except Located SetItem :=
  let wrong := cursor.fault (.setRange (String.ofList lowToken) (String.ofList highToken))
    (lowToken.length + 1 + highToken.length)
  match low, high with
  | .code low, .code high => if high < low then .error wrong else .ok (.range low high)
  | _, _ => .error wrong

/-- Read the entries of a set that opened at `start`, and its closing bracket. -/
def readSetItems (start : Nat) : (fuel : Nat) → List SetItem → Cursor →
    Except Located (List SetItem × Cursor)
  | 0, _, _ => .error ⟨.unterminatedSet, start⟩
  | fuel + 1, items, cursor => do
      let token := cursor.peek
      let cursor ← cursor.advance
      if token.isEmpty then .error ⟨.unterminatedSet, start⟩
      else if token = [']'] && !items.isEmpty then .ok (items, cursor)
      else
        let (item, cursor) ← setItem token cursor
        if cursor.peek = ['-'] then
          let cursor ← cursor.advance
          let second := cursor.peek
          let cursor ← cursor.advance
          if second.isEmpty then .error ⟨.unterminatedSet, start⟩
          else if second = [']'] then .ok (items ++ [item, .code 45], cursor)
          else
            let (high, cursor) ← setItem second cursor
            let range ← setRange item high token second cursor
            readSetItems start fuel (items ++ [range]) cursor
        else readSetItems start fuel (items ++ [item]) cursor

/-- Read a set; its opening bracket has been passed over. -/
def readSet (cursor : Cursor) : Except Located (List SetItem × Bool × Cursor) := do
  let start := cursor.position - 1
  let negated := cursor.peek = ['^']
  let cursor ← if negated then cursor.advance else .ok cursor
  let (items, cursor) ← readSetItems start (cursor.rest.length + 1) [] cursor
  return (items, negated, cursor)

end FormulaEdit.Pattern
