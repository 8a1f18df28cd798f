import LocaleScript.Proofs.Script.Atom
import LocaleScript.Proofs.Script.Bytes

/-!
# Reading a script byte by byte

A script can be read without decoding it: `lex` asks of a character only whether it is one of a few
ASCII characters, an ASCII letter or digit, or beyond ASCII, and every byte of a character beyond
ASCII is beyond ASCII. So reading the bytes, each taken as a character, finds the bytes of the
lexemes (`lex_byteText`).

This is not evident where a backslash stands before a character of several bytes: only its first
byte is skipped, and the others are read on their own. Nothing happens to them, for no region begins
or ends at a byte beyond ASCII (`keepAll_of_beyond`).
-/

namespace LocaleScript.Script

/-! ## Bytes as characters -/

/-- The bytes of a text, each taken as a character. -/
def byteText (text : List Char) : List Char :=
  (textBytes text).map byteChar

@[simp] theorem byteText_nil : byteText [] = [] := rfl

theorem byteText_append (as bs : List Char) : byteText (as ++ bs) = byteText as ++ byteText bs := by
  simp only [byteText, textBytes, List.flatMap_append, List.map_append]

theorem byteText_cons (c : Char) (cs : List Char) :
    byteText (c :: cs) = byteText [c] ++ byteText cs :=
  byteText_append [c] cs

/-- As many bytes as the text takes. -/
theorem length_byteText (text : List Char) : (byteText text).length = Text.byteLength text := by
  induction text with
  | nil => rfl
  | cons c cs ih =>
    rw [byteText_cons, List.length_append, ih, Text.byteLength_cons]
    simp [byteText, textBytes]

theorem byteText_ascii {c : Char} (hc : c.toNat < 0x80) : byteText [c] = [c] := by
  have hb : (UInt8.ofNat c.toNat).toNat = c.toNat := by
    rw [UInt8.toNat_ofNat']
    omega
  simp only [byteText, textBytes, List.flatMap_cons, List.flatMap_nil, List.append_nil,
    utf8EncodeChar_ascii hc, List.map_cons, List.map_nil, byteChar, hb, Char.ofNat_toNat]

theorem byteText_cons_ascii {c : Char} (hc : c.toNat < 0x80) (cs : List Char) :
    byteText (c :: cs) = c :: byteText cs := by
  rw [byteText_cons, byteText_ascii hc, List.singleton_append]

/-- All characters of the text are beyond ASCII. -/
def Beyond (text : List Char) : Prop :=
  ∀ c ∈ text, 0x80 ≤ c.toNat

theorem beyond_byteText {c : Char} (hc : 0x80 ≤ c.toNat) : Beyond (byteText [c]) := by
  intro d hd
  simp only [byteText, textBytes, List.flatMap_cons, List.flatMap_nil, List.append_nil,
    List.mem_map] at hd
  obtain ⟨b, hb, rfl⟩ := hd
  rw [toNat_byteChar]
  exact le_of_mem_utf8EncodeChar hc hb

theorem Beyond.isWordChar {text : List Char} (h : Beyond text) :
    ∀ c ∈ text, isWordChar c = true :=
  fun c hc => isWordChar_beyond (h c hc)

/-- The first byte of a character, and those behind it: none if it is an ASCII character. -/
theorem exists_byteText_eq_cons (c : Char) : ∃ d ds, byteText [c] = d :: ds ∧ Beyond ds ∧
    (c.toNat < 0x80 ∧ d = c ∧ ds = [] ∨ 0x80 ≤ c.toNat ∧ 0x80 ≤ d.toNat) := by
  rcases Nat.lt_or_ge c.toNat 0x80 with hc | hc
  · exact ⟨c, [], byteText_ascii hc, fun _ hd => absurd hd List.not_mem_nil, .inl ⟨hc, rfl, rfl⟩⟩
  · have hbeyond := beyond_byteText hc
    cases hbytes : byteText [c] with
    -- No character takes no bytes.
    | nil =>
      have hlength := length_byteText [c]
      rw [hbytes] at hlength
      have := c.utf8Size_pos
      simp only [List.length_nil, Text.byteLength_cons, Text.byteLength_nil] at hlength
      omega
    | cons d ds =>
      rw [hbytes] at hbeyond
      exact ⟨d, ds, rfl, fun e he => hbeyond e (.tail _ he), .inr ⟨hc, hbeyond d (.head _)⟩⟩

/-- An ASCII character stands first among the bytes if it stands first in the text. -/
theorem head?_byteText_eq_iff {d : Char} (hd : d.toNat < 0x80) (cs : List Char) :
    (byteText cs).head? = some d ↔ cs.head? = some d := by
  cases cs with
  | nil => rfl
  | cons c cs =>
    obtain ⟨e, es, hbytes, -, ⟨-, rfl, -⟩ | ⟨hc, he⟩⟩ := exists_byteText_eq_cons c
    · rw [byteText_cons, hbytes]
      rfl
    · rw [byteText_cons, hbytes]
      simp only [List.cons_append, List.head?_cons, Option.some.injEq, ne_beyond hc hd,
        ne_beyond he hd]

/-- Bytes are those of an ASCII text only if the text is this text. -/
theorem byteText_eq_iff {word : List Char} (hword : ∀ c ∈ word, c.toNat < 0x80) (text : List Char) :
    byteText text = word ↔ text = word := by
  induction word generalizing text with
  | nil =>
    cases text with
    | nil => simp
    | cons c cs =>
      obtain ⟨d, ds, hbytes, -⟩ := exists_byteText_eq_cons c
      simp [byteText_cons c cs, hbytes]
  | cons w word ih =>
    have hw := hword w (.head _)
    have hrest : ∀ c ∈ word, c.toNat < 0x80 := fun c hc => hword c (.tail _ hc)
    cases text with
    | nil => simp
    | cons c cs =>
      obtain ⟨d, ds, hbytes, -, ⟨-, rfl, rfl⟩ | ⟨hc, hd⟩⟩ := exists_byteText_eq_cons c
      · rw [byteText_cons, hbytes, List.singleton_append, List.cons_eq_cons, List.cons_eq_cons,
          ih hrest]
      · rw [byteText_cons, hbytes]
        simp only [List.cons_append, List.cons_eq_cons, ne_beyond hc hw, ne_beyond hd hw, false_and]

/-! ## Runs of one class -/

/-- The bytes of every character are in the class if the character is, and all outside of it
otherwise. -/
def ByteClass (p : Char → Bool) : Prop :=
  ∀ c, ∀ d ∈ byteText [c], p d = p c

theorem byteClass_of_beyond {p : Char → Bool} (value : Bool)
    (hp : ∀ c : Char, 0x80 ≤ c.toNat → p c = value) : ByteClass p := by
  intro c d hd
  rcases Nat.lt_or_ge c.toNat 0x80 with hc | hc
  · rw [byteText_ascii hc, List.mem_singleton] at hd
    rw [hd]
  · rw [hp c hc, hp d (beyond_byteText hc d hd)]

theorem byteClass_isWordChar : ByteClass isWordChar :=
  byteClass_of_beyond true fun _ => isWordChar_beyond

theorem byteClass_ne_newline : ByteClass (· != '\n') :=
  byteClass_of_beyond true fun _ hc => bne_iff_ne.mpr (ne_beyond hc (by decide))

theorem isAlpha_beyond {c : Char} (hc : 0x80 ≤ c.toNat) : c.isAlpha = false := by
  have hle : ∀ d : Char, d.toNat < 0x80 → ¬c.val ≤ d.val := fun d hd h =>
    absurd (UInt32.le_iff_toNat_le.mp h) (Nat.not_le.mpr (Nat.lt_of_lt_of_le hd hc))
  have hupper : c.isUpper = false := decide_eq_false fun h => hle 'Z' (by decide) h.2
  have hlower : c.isLower = false :=
    Bool.and_eq_false_imp.mpr fun _ => decide_eq_false (hle 'z' (by decide))
  exact Bool.or_eq_false_iff.mpr ⟨hupper, hlower⟩

theorem byteClass_isAlpha : ByteClass Char.isAlpha :=
  byteClass_of_beyond false fun _ => isAlpha_beyond

/-- A run of bytes of one class takes whole characters. -/
theorem takeWhile_byteText {p : Char → Bool} (hp : ByteClass p) (cs : List Char) :
    (byteText cs).takeWhile p = byteText (cs.takeWhile p) ∧
      (byteText cs).dropWhile p = byteText (cs.dropWhile p) := by
  induction cs with
  | nil => exact ⟨rfl, rfl⟩
  | cons c cs ih =>
    rw [byteText_cons]
    cases hc : p c with
    | true =>
      have hall : ∀ d ∈ byteText [c], p d = true := fun d hd => (hp c d hd).trans hc
      rw [List.takeWhile_append_of_pos hall, List.dropWhile_append_of_pos hall,
        List.takeWhile_cons_of_pos hc, List.dropWhile_cons_of_pos hc, ih.1, ih.2,
        byteText_cons c (cs.takeWhile p)]
      exact ⟨rfl, rfl⟩
    | false =>
      obtain ⟨d, ds, hbytes, -⟩ := exists_byteText_eq_cons c
      have hd : ¬p d = true := by
        rw [hp c d (by rw [hbytes]; exact .head _), hc]
        exact Bool.false_ne_true
      have hc' : ¬p c = true := by
        rw [hc]
        exact Bool.false_ne_true
      rw [List.takeWhile_cons_of_neg hc', List.dropWhile_cons_of_neg hc', byteText_cons c cs,
        hbytes, List.cons_append, List.takeWhile_cons_of_neg hd, List.dropWhile_cons_of_neg hd]
      exact ⟨rfl, rfl⟩

/-! ## Cutting bytes -/

/-- A cut with the bytes of what was taken and of what is left. -/
def cutBytes (cut : Option (List Char × List Char)) : Option (List Char × List Char) :=
  cut.map fun p => (byteText p.1, byteText p.2)

/-- Puts a text back in front of what was taken. -/
def keepAll (text : List Char) (cut : Option (List Char × List Char)) :
    Option (List Char × List Char) :=
  text.foldr keep cut

@[simp] theorem cutBytes_none : cutBytes none = none := rfl

@[simp] theorem cutBytes_some (t r : List Char) :
    cutBytes (some (t, r)) = some (byteText t, byteText r) :=
  rfl

@[simp] theorem keepAll_nil (cut : Option (List Char × List Char)) : keepAll [] cut = cut := rfl

theorem keepAll_cons (c : Char) (text : List Char) (cut : Option (List Char × List Char)) :
    keepAll (c :: text) cut = keep c (keepAll text cut) :=
  rfl

theorem keepAll_append (as bs : List Char) (cut : Option (List Char × List Char)) :
    keepAll (as ++ bs) cut = keepAll as (keepAll bs cut) :=
  List.foldr_append

theorem keepAll_some (text t r : List Char) : keepAll text (some (t, r)) = some (text ++ t, r) := by
  induction text with
  | nil => rfl
  | cons c cs ih =>
    rw [keepAll_cons, ih]
    rfl

theorem keepAll_none (text : List Char) : keepAll text none = none := by
  induction text with
  | nil => rfl
  | cons c cs ih =>
    rw [keepAll_cons, ih]
    rfl

theorem cutBytes_keep (c : Char) (cut : Option (List Char × List Char)) :
    cutBytes (keep c cut) = keepAll (byteText [c]) (cutBytes cut) := by
  cases cut with
  | none => rw [keep_none, cutBytes_none, keepAll_none]
  | some p => rw [keep_some, cutBytes_some, cutBytes_some, keepAll_some, byteText_cons]

theorem cutBytes_keep_ascii {c : Char} (hc : c.toNat < 0x80)
    (cut : Option (List Char × List Char)) :
    cutBytes (keep c cut) = keep c (cutBytes cut) := by
  rw [cutBytes_keep, byteText_ascii hc]
  rfl

/-- A cut that takes a byte beyond ASCII and is the same cut behind it does so with a run. -/
theorem keepAll_of_beyond {cut : List Char → Option (List Char × List Char)}
    (hcut : ∀ d rest, 0x80 ≤ d.toNat → cut (d :: rest) = keep d (cut rest)) {ds : List Char}
    (hds : Beyond ds) (rest : List Char) : cut (ds ++ rest) = keepAll ds (cut rest) := by
  induction ds with
  | nil => rfl
  | cons d ds ih =>
    rw [List.cons_append, hcut d _ (hds d (.head _)), ih fun e he => hds e (.tail _ he)]
    rfl

section

variable {cut : List Char → Option (List Char × List Char)}
  (hcut : ∀ d rest, 0x80 ≤ d.toNat → cut (d :: rest) = keep d (cut rest)) {ds : List Char}
include hcut

/-- A character that a cut takes alone is taken byte by byte. It may leave the cut in another state,
but only if it is an ASCII character. -/
theorem cut_byteText_cons {cut' : List Char → Option (List Char × List Char)} {c : Char}
    {cs : List Char} (hc : c.toNat < 0x80 → cut (c :: byteText cs) = keep c (cut' (byteText cs)))
    (hsame : 0x80 ≤ c.toNat → cut' = cut) (ih : cut' (byteText cs) = cutBytes (cut' cs)) :
    cut (byteText (c :: cs)) = cutBytes (keep c (cut' cs)) := by
  rw [cutBytes_keep, ← ih, byteText_cons]
  rcases Nat.lt_or_ge c.toNat 0x80 with h | h
  · rw [byteText_ascii h, List.singleton_append, hc h]
    rfl
  · rw [hsame h]
    exact keepAll_of_beyond hcut (beyond_byteText h) _

/-- The character behind a backslash is skipped, though only its first byte is protected. -/
theorem cut_byteText_escape {d : Char} {ds : List Char}
    (hescape : ∀ e rest, (e = d ∨ 0x80 ≤ e.toNat) →
      cut ('\\' :: e :: rest) = keep '\\' (keep e (cut rest)))
    (ih : cut (byteText ds) = cutBytes (cut ds)) :
    cut (byteText ('\\' :: d :: ds)) = cutBytes (keep '\\' (keep d (cut ds))) := by
  obtain ⟨e, es, hbytes, hbeyond, hd⟩ := exists_byteText_eq_cons d
  have he : e = d ∨ 0x80 ≤ e.toNat := hd.imp (·.2.1) (·.2)
  -- The backslash takes `e`; the bytes `es` behind it are read one by one.
  rw [cutBytes_keep_ascii (by decide), cutBytes_keep, ← ih, byteText_cons_ascii (by decide),
    byteText_cons d ds, hbytes, List.cons_append, hescape e _ he, keepAll_of_beyond hcut hbeyond]
  rfl

end

theorem cutString_byteText {quote : Char} (hq : quote.toNat < 0x80) (cs : List Char) :
    cutString quote (byteText cs) = cutBytes (cutString quote cs) := by
  have hcut : ∀ d rest, 0x80 ≤ d.toNat →
      cutString quote (d :: rest) = keep d (cutString quote rest) := fun d rest hd =>
    cutString_cons (ne_beyond hd (by decide)) (ne_beyond hd (by decide)) (ne_beyond hd hq) rest
  induction cs using cutString_induction quote with
  | nil => rfl
  | lone => rfl
  | escape d ds ih =>
    rw [cutString_escape]
    exact cut_byteText_escape hcut (fun e rest _ => cutString_escape quote e rest) ih
  | newline cs =>
    rw [byteText_cons_ascii (by decide), cutString_newline, cutString_newline]
    rfl
  | close cs hb hn =>
    rw [byteText_cons_ascii hq, cutString_close hb hn, cutString_close hb hn, cutBytes_some,
      byteText_ascii hq]
  | char c cs hb hn hne ih =>
    rw [cutString_cons hb hn hne]
    exact cut_byteText_cons hcut (fun _ => cutString_cons hb hn hne _) (fun _ => rfl) ih

theorem cutTemplate_beyond (depth : Nat) {d : Char} (hd : 0x80 ≤ d.toNat) (rest : List Char) :
    cutTemplate depth (d :: rest) = keep d (cutTemplate depth rest) := by
  have hne : ∀ e : Char, e.toNat < 0x80 → d ≠ e := fun e => ne_beyond hd
  by_cases h : depth = 0
  · rw [h]
    exact cutTemplate_outside (hne _ (by decide)) (hne _ (by decide))
      fun ho => hne '$' (by decide) ho.1
  · rw [cutTemplate_inside h (hne _ (by decide)), if_neg (hne _ (by decide)),
      if_neg (hne _ (by decide))]

theorem cutTemplate_byteText (depth : Nat) (cs : List Char) :
    cutTemplate depth (byteText cs) = cutBytes (cutTemplate depth cs) := by
  have hcut : ∀ depth d rest, 0x80 ≤ d.toNat →
      cutTemplate depth (d :: rest) = keep d (cutTemplate depth rest) :=
    fun depth d rest hd => cutTemplate_beyond depth hd rest
  induction depth, cs using cutTemplate_induction with
  | nil depth => rfl
  | lone depth => rfl
  | escape depth d ds ih =>
    rw [cutTemplate_escape]
    exact cut_byteText_escape (hcut depth) (fun e rest _ => cutTemplate_escape depth e rest) ih
  | close cs =>
    rw [byteText_cons_ascii (by decide), cutTemplate_close, cutTemplate_close]
    rfl
  | opening ds ih =>
    rw [byteText_cons_ascii (by decide), byteText_cons_ascii (by decide), cutTemplate_open,
      cutTemplate_open, ih, cutBytes_keep_ascii (by decide), cutBytes_keep_ascii (by decide)]
  -- The brace behind a dollar sign is an ASCII character, so the bytes show one where it stands.
  | outside c cs hb hq ho ih =>
    rw [cutTemplate_outside hb hq ho]
    refine cut_byteText_cons (hcut 0) (fun _ => cutTemplate_outside hb hq fun h => ho ⟨h.1, ?_⟩)
      (fun _ => rfl) ih
    exact (head?_byteText_eq_iff (by decide) cs).mp h.2
  | inside depth c cs hd hb ih =>
    rw [cutTemplate_inside hd hb]
    refine cut_byteText_cons (hcut depth) (fun _ => cutTemplate_inside hd hb _) (fun hc => ?_) ih
    rw [if_neg (ne_beyond hc (by decide)), if_neg (ne_beyond hc (by decide))]

theorem cutRegex_beyond (inClass : Bool) {d : Char} (hd : 0x80 ≤ d.toNat) (rest : List Char) :
    cutRegex inClass (d :: rest) = keep d (cutRegex inClass rest) := by
  have hne : ∀ e : Char, e.toNat < 0x80 → d ≠ e := fun e => ne_beyond hd
  rw [cutRegex_cons (hne _ (by decide)) (hne _ (by decide)) fun h => hne '/' (by decide) h.1,
    if_neg (hne _ (by decide)), if_neg (hne _ (by decide))]

theorem cutRegex_byteText (inClass : Bool) (cs : List Char) :
    cutRegex inClass (byteText cs) = cutBytes (cutRegex inClass cs) := by
  have hcut : ∀ inClass d rest, 0x80 ≤ d.toNat →
      cutRegex inClass (d :: rest) = keep d (cutRegex inClass rest) :=
    fun inClass d rest hd => cutRegex_beyond inClass hd rest
  induction inClass, cs using cutRegex_induction with
  | nil inClass => rfl
  | lone inClass => rfl
  | escape inClass d ds hn ih =>
    rw [cutRegex_escape hn]
    refine cut_byteText_escape (hcut inClass) (fun e rest he => cutRegex_escape ?_ rest) ih
    rcases he with rfl | he
    · exact hn
    · exact ne_beyond he (by decide)
  | escapeNewline inClass ds =>
    rw [byteText_cons_ascii (by decide), byteText_cons_ascii (by decide), cutRegex_escape_newline,
      cutRegex_escape_newline]
    rfl
  | newline inClass cs =>
    rw [byteText_cons_ascii (by decide), cutRegex_newline, cutRegex_newline]
    rfl
  | close cs =>
    obtain ⟨htake, hdrop⟩ := takeWhile_byteText byteClass_isAlpha cs
    rw [byteText_cons_ascii (by decide), cutRegex_close, cutRegex_close, cutBytes_some,
      byteText_cons_ascii (by decide), htake, hdrop]
  | char inClass c cs hb hn hs ih =>
    rw [cutRegex_cons hb hn hs]
    refine cut_byteText_cons (hcut inClass) (fun _ => cutRegex_cons hb hn hs _) (fun hc => ?_) ih
    rw [if_neg (ne_beyond hc (by decide)), if_neg (ne_beyond hc (by decide))]

theorem cutBlock_byteText (cs : List Char) : cutBlock (byteText cs) = cutBytes (cutBlock cs) := by
  have hcut : ∀ d rest, 0x80 ≤ d.toNat → cutBlock (d :: rest) = keep d (cutBlock rest) :=
    fun d rest hd => cutBlock_cons fun h => ne_beyond hd (by decide) h.1
  induction cs using cutBlock_induction with
  | nil => rfl
  | close ds =>
    rw [byteText_cons_ascii (by decide), byteText_cons_ascii (by decide), cutBlock_close,
      cutBlock_close]
    rfl
  -- So is the slash that ends a comment.
  | char c cs hs ih =>
    rw [cutBlock_cons hs]
    refine cut_byteText_cons hcut (fun _ => cutBlock_cons fun h => hs ⟨h.1, ?_⟩) (fun _ => rfl) ih
    exact (head?_byteText_eq_iff (by decide) cs).mp h.2

/-! ## Reading bytes -/

/-- Bytes of a character open what the character opens. -/
theorem opened_byteText (operand : Bool) {c d : Char} {ds : List Char}
    (hbytes : byteText [c] = d :: ds) (cs : List Char) :
    Kind.opened operand d (ds ++ byteText cs) = Kind.opened operand c cs := by
  rcases Nat.lt_or_ge c.toNat 0x80 with hc | hc
  · obtain ⟨rfl, rfl⟩ := List.cons.inj ((byteText_ascii hc).symm.trans hbytes)
    have hhead : ∀ e : Char, e.toNat < 0x80 →
        (((byteText cs).head? = some e) = (cs.head? = some e)) :=
      fun e he => propext (head?_byteText_eq_iff he cs)
    by_cases hslash : c = '/'
    · rw [hslash, List.nil_append, opened_slash, opened_slash]
      simp only [hhead '/' (by decide), hhead '*' (by decide)]
    · exact opened_of_ne_slash hslash operand operand _ _
  · have hd : 0x80 ≤ d.toNat := beyond_byteText hc d (by rw [hbytes]; exact .head _)
    rw [opened_of_isWordChar operand (isWordChar_beyond hc),
      opened_of_isWordChar operand (isWordChar_beyond hd)]

theorem Kind.cut_byteText_ascii {c : Char} (hc : c.toNat < 0x80) (kind : Kind) (cs : List Char) :
    kind.cut c (byteText cs) = cutBytes (kind.cut c cs) := by
  cases kind with
  | code =>
    obtain ⟨htake, hdrop⟩ := takeWhile_byteText byteClass_isWordChar cs
    simp only [Kind.cut, htake, hdrop]
    split <;> rfl
  | string => exact cutString_byteText hc cs
  | template => exact cutTemplate_byteText 0 cs
  | regex => exact cutRegex_byteText false cs
  | lineComment =>
    obtain ⟨htake, hdrop⟩ := takeWhile_byteText byteClass_ne_newline cs
    simp only [Kind.cut, htake, hdrop, cutBytes_some]
  -- What follows the slash is taken unread; of its bytes only the first, the others like the rest.
  | blockComment =>
    cases cs with
    | nil => rfl
    | cons star cs =>
      obtain ⟨d, ds, hbytes, hbeyond, -⟩ := exists_byteText_eq_cons star
      have hcut : cutBlock (ds ++ byteText cs) = keepAll ds (cutBytes (cutBlock cs)) := by
        rw [← cutBlock_byteText]
        exact keepAll_of_beyond
          (fun e rest he => cutBlock_cons fun h => ne_beyond he (by decide) h.1)
          hbeyond _
      simp only [Kind.cut]
      rw [cutBytes_keep, byteText_cons, hbytes, List.cons_append]
      simp only [hcut]
      rfl

/-- A region is cut off from the bytes as it is from the text. -/
theorem Kind.cut_byteText (operand : Bool) {c d : Char} {ds : List Char}
    (hbytes : byteText [c] = d :: ds) (cs : List Char) :
    (Kind.opened operand c cs).cut d (ds ++ byteText cs)
      = ((Kind.opened operand c cs).cut c cs).map fun p => (ds ++ byteText p.1, byteText p.2) := by
  rcases Nat.lt_or_ge c.toNat 0x80 with hc | hc
  · obtain ⟨rfl, rfl⟩ := List.cons.inj ((byteText_ascii hc).symm.trans hbytes)
    exact Kind.cut_byteText_ascii hc _ cs
  · have hbeyond : Beyond (d :: ds) := hbytes ▸ beyond_byteText hc
    have hcode : Kind.opened operand c cs = .code :=
      opened_of_isWordChar operand (isWordChar_beyond hc) cs
    obtain ⟨htake, hdrop⟩ := takeWhile_byteText byteClass_isWordChar cs
    have hds : ∀ e ∈ ds, isWordChar e = true := fun e he => hbeyond.isWordChar e (.tail _ he)
    simp only [hcode, Kind.cut, isWordChar_beyond hc, hbeyond.isWordChar d (.head _), reduceIte,
      Option.map_some, List.takeWhile_append_of_pos hds, List.dropWhile_append_of_pos hds, htake,
      hdrop]

/-- The lexeme with the bytes of its text. -/
def Lexeme.inBytes (l : Lexeme) : Lexeme :=
  ⟨l.kind, byteText l.text⟩

theorem operandWords_ascii : ∀ word ∈ operandWords, ∀ c ∈ word, c.toNat < 0x80 := by
  simp [operandWords]

/-- A word is one before operands if its bytes are. -/
theorem contains_operandWords_byteText (text : List Char) :
    operandWords.contains (byteText text) = operandWords.contains text := by
  rw [Bool.eq_iff_iff, List.contains_iff_mem, List.contains_iff_mem]
  constructor
  · intro h
    have htext : text = byteText text := (byteText_eq_iff (operandWords_ascii _ h) text).mp rfl
    rwa [htext]
  · intro h
    rwa [(byteText_eq_iff (operandWords_ascii _ h) text).mpr rfl]

theorem operandAfter_inBytes (operand : Bool) (kind : Kind) (c : Char) (cs : List Char) :
    (Lexeme.inBytes ⟨kind, c :: cs⟩).operandAfter operand
      = Lexeme.operandAfter operand ⟨kind, c :: cs⟩ := by
  obtain ⟨d, ds, hbytes, -, hd⟩ := exists_byteText_eq_cons c
  have htext : byteText (c :: cs) = d :: (ds ++ byteText cs) := by
    rw [byteText_cons, hbytes, List.cons_append]
  cases kind with
  | code =>
    have hcontains := contains_operandWords_byteText (c :: cs)
    simp only [Lexeme.operandAfter, Lexeme.inBytes, htext] at hcontains ⊢
    rcases hd with ⟨-, rfl, -⟩ | ⟨hc, hd⟩
    · rw [hcontains]
    · simp only [isWordChar_beyond hc, isWordChar_beyond hd, reduceIte, hcontains]
  | _ => simp only [Lexeme.operandAfter, Lexeme.inBytes, htext]

/-- Reading a script byte by byte finds the bytes of its lexemes, and it ends where the reading
ends. -/
theorem lex_byteText (operand : Bool) (cs : List Char) :
    lex operand (byteText cs)
      = ⟨(lex operand cs).lexemes.map Lexeme.inBytes, (lex operand cs).unterminated⟩ := by
  induction operand, cs using lex_induction with
  | nil operand =>
    rw [byteText_nil, lex_nil]
    rfl
  | unterminated operand c rest hcut =>
    obtain ⟨d, ds, hbytes, -⟩ := exists_byteText_eq_cons c
    have hbytecut := Kind.cut_byteText operand hbytes rest
    rw [hcut, ← opened_byteText operand hbytes rest] at hbytecut
    rw [lex_cons_none hcut, byteText_cons, hbytes, List.cons_append, lex_cons_none hbytecut,
      opened_byteText operand hbytes]
    rfl
  -- The lexeme found among the bytes is that of the text, so what follows is read the same way.
  | lexeme operand c rest taken left hcut ih =>
    obtain ⟨d, ds, hbytes, -⟩ := exists_byteText_eq_cons c
    have hbytecut := Kind.cut_byteText operand hbytes rest
    rw [hcut, ← opened_byteText operand hbytes rest] at hbytecut
    have htext : d :: (ds ++ byteText taken) = byteText (c :: taken) := by
      rw [byteText_cons, hbytes, List.cons_append]
    have hafter : Lexeme.operandAfter operand ⟨Kind.opened operand c rest, byteText (c :: taken)⟩
        = Lexeme.operandAfter operand ⟨Kind.opened operand c rest, c :: taken⟩ :=
      operandAfter_inBytes operand (Kind.opened operand c rest) c taken
    rw [lex_cons_some hcut, byteText_cons, hbytes, List.cons_append, lex_cons_some hbytecut,
      opened_byteText operand hbytes, htext, hafter, ih]
    rfl

end LocaleScript.Script
