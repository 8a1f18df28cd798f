import LocaleScript.Text.CaseData

/-!
# Letter case

Full case maps of Unicode, independent of any language: one character may become several. A capital
sigma at the end of a word becomes a final sigma.
-/

namespace LocaleScript.Text

/-- The image of a character under rows of a case map. -/
def caseShift (rows : CaseData.Rows) (c : Char) : Char :=
  let n := c.toNat
  match rows.find? fun (first, last, step, _) =>
      first ≤ n && n ≤ last && (n - first) % step == 0 with
  | some (first, _, _, image) => Char.ofNat (image + (n - first))
  | none => c

/-- The image of a character under a case map with expansions. -/
def caseMap (rows : CaseData.Rows) (expansions : List (Nat × List Nat)) (c : Char) : List Char :=
  match expansions.lookup c.toNat with
  | some expansion => expansion.map Char.ofNat
  | none => [caseShift rows c]

def inRanges (ranges : List (Nat × Nat)) (c : Char) : Bool :=
  ranges.any fun range => range.1 ≤ c.toNat && c.toNat ≤ range.2

/-- The nearest character that is not ignored has case. -/
def meetsCased (cs : List Char) : Bool :=
  match cs.find? fun c => !inRanges CaseData.caseIgnorable c with
  | some c => inRanges CaseData.cased c
  | none => false

/-- Lower case behind the characters `before`, the nearest first. A capital sigma is final if a
cased letter stands before it and none behind it. -/
def lowerFrom (before : List Char) : List Char → List Char
  | [] => []
  | c :: cs =>
    let image :=
      if c = 'Σ' then [if meetsCased before && !meetsCased cs then 'ς' else 'σ']
      else caseMap CaseData.lowerRows CaseData.lowerExpansions c
    image ++ lowerFrom (c :: before) cs

/-- Lower case. -/
def lower (s : String) : String :=
  String.ofList (lowerFrom [] s.toList)

/-- Upper case. -/
def upper (s : String) : String :=
  String.ofList (s.toList.flatMap (caseMap CaseData.upperRows CaseData.upperExpansions))

end LocaleScript.Text
