import HtmlTemplate.Proofs.Script.Lexeme
import HtmlTemplate.Template.Builder

namespace HtmlTemplate

open Script

def ScriptNames.areIdentifiers (n : ScriptNames) : Bool :=
  isIdentifier n.html && isIdentifier n.rawHtml && isIdentifier n.joinHtml

def Script.isHandle (s : String) : Bool :=
  isIdentifier s && s ≠ "true" && s ≠ "false"

mutual

def Term.isWellFormed (n : ScriptNames) : Term String → Bool
  | .host handle => isHandle handle
  | .str _ => true
  | .bool _ => true
  | .template t => t.isWellFormed n
  | .list items => Term.allWellFormed n items
  | .object o => o.isWellFormed n
  | .raw inner => inner.isWellFormed n
  | .attributes o => o.isWellFormed n
  | .call callee props => isIdentifier callee && callee ≠ n.rawHtml && props.isWellFormed n

def Term.allWellFormed (n : ScriptNames) : List (Term String) → Bool
  | [] => true
  | t :: ts => t.isWellFormed n && Term.allWellFormed n ts

def Template.isWellFormed (n : ScriptNames) : Template String → Bool
  | ⟨segments⟩ => Segment.alternates segments && Segment.allWellFormed n segments

def Segment.isWellFormed (n : ScriptNames) : Segment String → Bool
  | .literal _ => true
  | .expression term => term.isWellFormed n

def Segment.allWellFormed (n : ScriptNames) : List (Segment String) → Bool
  | [] => true
  | s :: ss => s.isWellFormed n && Segment.allWellFormed n ss

def ObjectLiteral.isWellFormed (n : ScriptNames) : ObjectLiteral String → Bool
  | ⟨entries⟩ => Entry.allWellFormed n entries

def Entry.isWellFormed (n : ScriptNames) : Entry String → Bool
  | .field _ value => value.isWellFormed n
  | .spread handle => isHandle handle

def Entry.allWellFormed (n : ScriptNames) : List (Entry String) → Bool
  | [] => true
  | e :: es => e.isWellFormed n && Entry.allWellFormed n es

end

namespace Script

def ofName (name : List Char) : Term String :=
  if name = boolChars true then .bool true
  else if name = boolChars false then .bool false
  else .host (String.ofList name)

def entriesCall (n : ScriptNames) : List Char :=
  n.joinHtml.toList ++ '(' :: ("Object".toList ++ '.' :: "entries(".toList)

mutual

def readTerm (n : ScriptNames) : Nat → List Char → Option (Term String × List Char)
  | 0, _ => none
  | fuel + 1, cs =>
      match scanName cs with
      | (_, '\x22' :: rest) => do
          let (text, rest) ← Json.readString [] rest.length rest
          return (.str text, rest)
      | (_, '\x60' :: rest) => do
          let (segments, rest) ← readSegments n fuel rest
          return (.template ⟨segments⟩, rest)
      | (_, '[' :: rest) =>
          match skip [']'] rest with
          | some rest => some (.list [], rest)
          | none => do
              let (items, rest) ← readItems n fuel rest
              return (.list items, rest)
      | (_, '\x7b' :: rest) => do
          let (o, rest) ← readObject n fuel ('\x7b' :: rest)
          return (.object o, rest)
      | (name, '(' :: rest) =>
          if name = n.rawHtml.toList then
            match skip (entriesCall n) rest with
            | some rest => do
                let (o, rest) ← readObject n fuel rest
                let rest ← skip (attributeListEnd n).toList rest
                return (.attributes o, rest)
            | none => do
                let (inner, rest) ← readTerm n fuel rest
                let rest ← skip [')'] rest
                return (.raw inner, rest)
          else do
            let (props, rest) ← readObject n fuel rest
            let rest ← skip [')'] rest
            return (.call (String.ofList name) props, rest)
      | (name, rest) => some (ofName name, rest)

def readItems (n : ScriptNames) : Nat → List Char → Option (List (Term String) × List Char)
  | 0, _ => none
  | fuel + 1, cs => do
      let (item, rest) ← readTerm n fuel cs
      match rest with
      | ',' :: ' ' :: rest =>
          let (items, rest) ← readItems n fuel rest
          return (item :: items, rest)
      | ']' :: rest => return ([item], rest)
      | _ => none

def readSegments (n : ScriptNames) : Nat → List Char → Option (List (Segment String) × List Char)
  | 0, _ => none
  | fuel + 1, cs =>
      match scanLiteral cs with
      | (text, '\x60' :: rest) => some ([.literal (String.ofList text)], rest)
      | (text, '$' :: '\x7b' :: rest) => do
          let (term, rest) ← readTerm n fuel rest
          let rest ← skip ['\x7d'] rest
          let (segments, rest) ← readSegments n fuel rest
          return (.literal (String.ofList text) :: .expression term :: segments, rest)
      | _ => none

def readObject (n : ScriptNames) : Nat → List Char → Option (ObjectLiteral String × List Char)
  | 0, _ => none
  | _ + 1, '\x7b' :: '\x7d' :: rest => some (⟨[]⟩, rest)
  | fuel + 1, '\x7b' :: ' ' :: rest => do
      let (entries, rest) ← readEntries n fuel rest
      return (⟨entries⟩, rest)
  | _ + 1, _ => none

def readEntries (n : ScriptNames) : Nat → List Char → Option (List (Entry String) × List Char)
  | 0, _ => none
  | fuel + 1, cs => do
      let (entry, rest) ← readEntry n fuel cs
      match rest with
      | ',' :: ' ' :: rest =>
          let (entries, rest) ← readEntries n fuel rest
          return (entry :: entries, rest)
      | ' ' :: '\x7d' :: rest => return ([entry], rest)
      | _ => none

def readEntry (n : ScriptNames) : Nat → List Char → Option (Entry String × List Char)
  | 0, _ => none
  | fuel + 1, '\x22' :: rest => do
      let (key, rest) ← Json.readString [] rest.length rest
      let rest ← skip [':', ' '] rest
      let (value, rest) ← readTerm n fuel rest
      return (.field key value, rest)
  | _ + 1, '.' :: '.' :: '.' :: rest =>
      some (.spread (String.ofList (scanName rest).1), (scanName rest).2)
  | _ + 1, _ => none

end

def read? (n : ScriptNames) (s : String) : Option (Term String) :=
  match readTerm n (s.length + 1) s.toList with
  | some (t, []) => some t
  | _ => none

end Script

end HtmlTemplate
