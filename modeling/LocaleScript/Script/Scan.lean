import LocaleScript.Script.Lexeme

/-!
# Scanning a script

The segments of a script are its lexemes with neighbouring code joined, each with the byte offset
where it begins. Their texts make up the script.
-/

namespace LocaleScript.Script

/-- Joins neighbouring lexemes of code. -/
def joinCode : List Lexeme → List Lexeme
  | [] => []
  | l :: ls =>
    match joinCode ls with
    | [] => [l]
    | m :: ms =>
      if l.kind = .code ∧ m.kind = .code then ⟨.code, l.text ++ m.text⟩ :: ms else l :: m :: ms

theorem joinCode_last {ls : List Lexeme} (h : joinCode ls = []) (l : Lexeme) :
    joinCode (l :: ls) = [l] := by
  rw [joinCode, h]

theorem joinCode_joined {ls ms : List Lexeme} {text text' : List Char}
    (h : joinCode ls = ⟨.code, text'⟩ :: ms) :
    joinCode (⟨.code, text⟩ :: ls) = ⟨.code, text ++ text'⟩ :: ms := by
  rw [joinCode, h]
  exact if_pos ⟨rfl, rfl⟩

theorem joinCode_apart {l m : Lexeme} {ls ms : List Lexeme} (h : joinCode ls = m :: ms)
    (hkinds : ¬(l.kind = .code ∧ m.kind = .code)) : joinCode (l :: ls) = l :: m :: ms := by
  rw [joinCode, h]
  exact if_neg hkinds

/-- A lexeme is the last one, or it is code in front of code, or it stays apart from the next. -/
theorem joinCode_induction {motive : List Lexeme → Prop} (nil : motive [])
    (last : ∀ l ls, joinCode ls = [] → motive ls → motive (l :: ls))
    (joined : ∀ text text' ls ms, joinCode ls = ⟨.code, text'⟩ :: ms → motive ls →
      motive (⟨.code, text⟩ :: ls))
    (apart : ∀ l m ls ms, joinCode ls = m :: ms → ¬(l.kind = .code ∧ m.kind = .code) → motive ls →
      motive (l :: ls))
    (ls : List Lexeme) : motive ls := by
  induction ls with
  | nil => exact nil
  | cons l ls ih =>
    cases hjoin : joinCode ls with
    | nil => exact last l ls hjoin ih
    | cons m ms =>
      by_cases hkinds : l.kind = .code ∧ m.kind = .code
      · obtain ⟨kind, text⟩ := l
        obtain ⟨kind', text'⟩ := m
        obtain ⟨rfl, rfl⟩ := hkinds
        exact joined text text' ls ms hjoin ih
      · exact apart l m ls ms hjoin hkinds ih

/-- Gives each lexeme the byte offset where it begins. -/
def locate (start : Nat) : List Lexeme → List Segment
  | [] => []
  | l :: ls => ⟨l.kind, start, l.text⟩ :: locate (start + Text.byteLength l.text) ls

/-- Splits a script into the segments that make it up. -/
def scan (source : List Char) : Except ScanError (List Segment) :=
  let lexed := lex true source
  match lexed.unterminated with
  | none => .ok (locate 0 (joinCode lexed.lexemes))
  | some kind => .error ⟨Text.byteLength (lexed.lexemes.flatMap (·.text)), kind⟩

end LocaleScript.Script
