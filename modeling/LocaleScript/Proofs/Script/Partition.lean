import LocaleScript.Proofs.Script.ByteReading
import LocaleScript.Proofs.Script.Neighbour
import LocaleScript.Proofs.Script.Tokens
import LocaleScript.Proofs.Text.Position
import Mathlib.Data.List.Chain

/-!
# The segments of a script partition it

The segments of a script that scans are its text cut into pieces: none is empty, each begins where
the one before ends, code is never split in two, and no literal and no comment is left inside of
code (`IsPartition`).

A scanner that works on bytes finds the same segments. It reads the bytes of the source without
decoding them and cuts the lexemes out by their offsets (`scanBytes`); such a cut fails inside of a
character. As what it reads are the bytes of the lexemes, none of its cuts fails (`cutOut_inBytes`).
-/

namespace LocaleScript

/-- The part of a text from one byte offset to another. There is none if an offset lies inside of a
character or behind the text, or if the part would end before it begins. -/
def Text.slice? (cs : List Char) (start stop : Nat) : Option (List Char) :=
  if start ≤ stop ∧ stop ≤ byteLength cs ∧
      isBoundary start cs = true ∧ isBoundary stop cs = true then
    some (slice cs start stop)
  else none

theorem Text.slice?_append (before part behind : List Char) :
    slice? (before ++ part ++ behind) (byteLength before) (byteLength before + byteLength part)
      = some part := by
  have hstart : isBoundary (byteLength before) (before ++ part ++ behind) = true := by
    rw [List.append_assoc]
    exact isBoundary_append before _
  have hstop :
      isBoundary (byteLength before + byteLength part) (before ++ part ++ behind) = true := by
    rw [← byteLength_append]
    exact isBoundary_append _ behind
  have hend : byteLength before + byteLength part ≤ byteLength (before ++ part ++ behind) := by
    rw [byteLength_append, byteLength_append]
    exact Nat.le_add_right _ _
  rw [slice?, if_pos ⟨Nat.le_add_right _ _, hend, hstart, hstop⟩, slice_append]

namespace Script

/-! ## Scanning bytes -/

/-- Cuts lexemes, given by their bytes, out of a source, one behind the other from an offset on. -/
def cutOut (source : List Char) (start : Nat) : List Lexeme → Option (List Lexeme)
  | [] => some []
  | l :: ls => do
    let text ← Text.slice? source start (start + l.text.length)
    let rest ← cutOut source (start + l.text.length) ls
    return ⟨l.kind, text⟩ :: rest

/-- Scans a source byte by byte; nothing if a lexeme does not begin and end between characters. The
words that are looked up in code are lexemes too, so they are among what is cut out. -/
def scanBytes (source : List Char) : Option (Except ScanError (List Segment)) :=
  let lexed := lex true (byteText source)
  (cutOut source 0 lexed.lexemes).map fun lexemes =>
    match lexed.unterminated with
    | none => .ok (locate 0 (joinCode lexemes))
    | some kind => .error ⟨(lexed.lexemes.flatMap (·.text)).length, kind⟩

theorem cutOut_inBytes (before : List Char) (ls : List Lexeme) (behind : List Char) :
    cutOut (before ++ script ls ++ behind) (Text.byteLength before) (ls.map Lexeme.inBytes)
      = some ls := by
  -- `before` grows by the lexemes that were cut out, so every offset is the length of a prefix.
  induction ls generalizing before with
  | nil => rfl
  | cons l ls ih =>
    have hslice := Text.slice?_append before l.text (script ls ++ behind)
    have hrest := ih (before ++ l.text)
    simp only [Text.byteLength_append, List.append_assoc] at hslice hrest
    simp only [List.map_cons, cutOut, Lexeme.inBytes, length_byteText, script_cons,
      List.append_assoc, hslice, hrest, Option.bind_eq_bind, Option.bind_some]
    rfl

/-- Lexemes make up a source, up to a literal or comment that does not end. -/
theorem exists_script_lex_append (operand : Bool) (cs : List Char) :
    ∃ left, script (lex operand cs).lexemes ++ left = cs ∧
      ((lex operand cs).unterminated = none → left = []) := by
  induction operand, cs using lex_induction with
  | nil operand =>
    rw [lex_nil]
    exact ⟨[], rfl, fun _ => rfl⟩
  | unterminated operand c rest hcut =>
    rw [lex_cons_none hcut]
    exact ⟨c :: rest, rfl, fun h => absurd h (Option.some_ne_none _)⟩
  | lexeme operand c rest taken left hcut ih =>
    obtain ⟨behind, htail, hnone⟩ := ih
    rw [lex_cons_some hcut]
    refine ⟨behind, ?_, hnone⟩
    rw [Lexed.behind, List.singleton_append, script_cons, List.append_assoc, htail,
      List.cons_append, Kind.cut_append hcut]

theorem length_flatMap_inBytes (ls : List Lexeme) :
    ((ls.map Lexeme.inBytes).flatMap (·.text)).length = Text.byteLength (script ls) := by
  induction ls with
  | nil => rfl
  | cons l ls ih =>
    rw [List.map_cons, List.flatMap_cons, List.length_append, ih, script_cons,
      Text.byteLength_append, Lexeme.inBytes, length_byteText]

/-- Scanning the bytes finds what scanning the characters finds, and cuts no character in two. -/
theorem scanBytes_eq (source : List Char) : scanBytes source = some (scan source) := by
  obtain ⟨left, hscript, -⟩ := exists_script_lex_append true source
  have hcut := cutOut_inBytes [] (lex true source).lexemes left
  rw [List.nil_append, hscript, Text.byteLength_nil] at hcut
  simp only [scanBytes, lex_byteText, hcut, Option.map_some, scan, length_flatMap_inBytes]
  rfl

/-! ## What scanning cuts into -/

/-- The segments are the source cut into pieces, with code in pieces as long as can be. -/
structure IsPartition (source : List Char) (segments : List Segment) : Prop where
  /-- The pieces make up the source. -/
  covers : segments.flatMap (·.text) = source
  nonempty : ∀ s ∈ segments, s.text ≠ []
  /-- Each piece begins behind the bytes of those before it. -/
  start_eq : ∀ before s behind, segments = before ++ s :: behind →
    s.start = Text.byteLength (before.flatMap (·.text))
  /-- The offsets where a piece begins and ends lie between characters, and it is what stands
  there. -/
  slice_eq : ∀ s ∈ segments, Text.slice? source s.start s.stop = some s.text
  /-- Code is not followed by code. -/
  maximal : segments.IsChain fun s t => ¬(s.kind = .code ∧ t.kind = .code)
  /-- No quote opens a literal and no slash a comment inside of code. -/
  code : ∀ s ∈ segments, s.kind = .code → '"' ∉ s.text ∧ '\'' ∉ s.text ∧ '\x60' ∉ s.text ∧
    ¬['/', '/'] <:+: s.text ∧ ¬['/', '*'] <:+: s.text

/-! ### Joined lexemes -/

theorem lex_text_ne_nil (operand : Bool) (cs : List Char) :
    ∀ l ∈ (lex operand cs).lexemes, l.text ≠ [] := by
  induction operand, cs using lex_induction with
  | nil operand =>
    rw [lex_nil]
    exact fun l hl => absurd hl List.not_mem_nil
  | unterminated operand c rest hcut =>
    rw [lex_cons_none hcut]
    exact fun l hl => absurd hl List.not_mem_nil
  | lexeme operand c rest taken left hcut ih =>
    rw [lex_cons_some hcut]
    intro l hl
    rcases List.mem_cons.mp hl with rfl | hl
    · exact List.cons_ne_nil c taken
    · exact ih l hl

theorem joinCode_text_ne_nil {ls : List Lexeme} (h : ∀ l ∈ ls, l.text ≠ []) :
    ∀ l ∈ joinCode ls, l.text ≠ [] := by
  induction ls using joinCode_induction with
  | nil => exact h
  | last l ls hjoin ih =>
    intro k hk
    rw [joinCode_last hjoin, List.mem_singleton] at hk
    subst hk
    exact h k (.head _)
  | joined text text' ls ms hjoin ih =>
    intro k hk
    rw [joinCode_joined hjoin] at hk
    rcases List.mem_cons.mp hk with rfl | hk
    · exact List.append_ne_nil_of_left_ne_nil (h ⟨.code, text⟩ (.head _)) text'
    · exact ih (fun n hn => h n (.tail _ hn)) k (by rw [hjoin]; exact .tail _ hk)
  | apart l m ls ms hjoin hkinds ih =>
    intro k hk
    rw [joinCode_apart hjoin hkinds] at hk
    rcases List.mem_cons.mp hk with rfl | hk
    · exact h k (.head _)
    · exact ih (fun n hn => h n (.tail _ hn)) k (by rw [hjoin]; exact hk)

/-- Of two neighbours that were joined, one is no code. -/
theorem isChain_joinCode (ls : List Lexeme) :
    (joinCode ls).IsChain fun l m => ¬(l.kind = .code ∧ m.kind = .code) := by
  induction ls using joinCode_induction with
  | nil => exact .nil
  | last l ls hjoin ih =>
    rw [joinCode_last hjoin]
    exact .singleton l
  | joined text text' ls ms hjoin ih =>
    rw [hjoin, List.isChain_cons] at ih
    rw [joinCode_joined hjoin]
    exact ih.2.cons fun n hn hboth => ih.1 n hn ⟨rfl, hboth.2⟩
  | apart l m ls ms hjoin hkinds ih =>
    rw [hjoin] at ih
    rw [joinCode_apart hjoin hkinds]
    exact .cons_cons hkinds ih

/-! ### Located lexemes -/

theorem flatMap_text_locate (start : Nat) (ls : List Lexeme) :
    (locate start ls).flatMap (·.text) = script ls := by
  induction ls generalizing start with
  | nil => rfl
  | cons l ls ih => rw [locate, List.flatMap_cons, ih, script_cons]

theorem map_kind_locate (start : Nat) (ls : List Lexeme) :
    (locate start ls).map (·.kind) = ls.map (·.kind) := by
  induction ls generalizing start with
  | nil => rfl
  | cons l ls ih => rw [locate, List.map_cons, List.map_cons, ih]

theorem start_eq_of_locate {start : Nat} {ls : List Lexeme} {before behind : List Segment}
    {s : Segment} (h : locate start ls = before ++ s :: behind) :
    s.start = start + Text.byteLength (before.flatMap (·.text)) := by
  induction before generalizing start ls with
  | nil =>
    cases ls with
    | nil => cases h
    | cons l ls =>
      obtain ⟨rfl, -⟩ := List.cons.inj h
      rfl
  | cons t before ih =>
    cases ls with
    | nil => cases h
    | cons l ls =>
      obtain ⟨rfl, hrest⟩ := List.cons.inj h
      rw [ih hrest, List.flatMap_cons, Text.byteLength_append, Nat.add_assoc]

/-! ### What code is free of -/

theorem of_opened_eq_code {operand : Bool} {c : Char} {cs : List Char}
    (h : Kind.opened operand c cs = .code) : c ≠ '"' ∧ c ≠ '\'' ∧ c ≠ '\x60' := by
  refine ⟨?_, ?_, ?_⟩ <;> (rintro rfl; cases h)

/-- Each character of code is read as code where it stands. -/
theorem opened_of_reads_code {r : Reading} {before : List Char} {c : Char} {behind : List Char}
    {as : List Lexeme} (h : Reads r ((before ++ c :: behind).map codeChar ++ as)) :
    ∃ operand, Kind.opened operand c (behind ++ script as) = .code := by
  rw [List.map_append, List.append_assoc] at h
  obtain ⟨fits, -⟩ := reads_cons_iff.mp h.append_right
  have hcode := fits_codeChar_iff.mp fits
  rw [List.append_eq, script_append, script_map_codeChar] at hcode
  exact ⟨_, hcode⟩

theorem code_free_of_reads {r : Reading} {text : List Char} {as : List Lexeme}
    (h : Reads r (text.map codeChar ++ as)) :
    '"' ∉ text ∧ '\'' ∉ text ∧ '\x60' ∉ text ∧
      ¬['/', '/'] <:+: text ∧ ¬['/', '*'] <:+: text := by
  -- A quote opens a literal wherever it stands; a slash opens a comment because of what is behind
  -- it.
  have hquote : ∀ c ∈ text, c ≠ '"' ∧ c ≠ '\'' ∧ c ≠ '\x60' := by
    intro c hc
    obtain ⟨before, behind, rfl⟩ := List.append_of_mem hc
    obtain ⟨operand, hcode⟩ := opened_of_reads_code h
    exact of_opened_eq_code hcode
  have hslash : ∀ d, ['/', d] <:+: text → d ≠ '/' ∧ d ≠ '*' := by
    rintro d ⟨before, behind, rfl⟩
    rw [List.append_assoc] at h
    obtain ⟨operand, hcode⟩ :
        ∃ operand, Kind.opened operand '/' (d :: behind ++ script as) = .code :=
      opened_of_reads_code h
    obtain ⟨hs, hb, -⟩ := beginsWith_of_opened hcode rfl
    exact ⟨fun hd => hs (congrArg some hd), fun hd => hb (congrArg some hd)⟩
  exact ⟨fun hc => (hquote _ hc).1 rfl, fun hc => (hquote _ hc).2.1 rfl,
    fun hc => (hquote _ hc).2.2 rfl, fun hc => (hslash _ hc).1 rfl, fun hc => (hslash _ hc).2 rfl⟩

/-! ### The partition -/

/-- Lexemes that are read from their text, joined and located, partition it. -/
theorem isPartition_locate {ls : List Lexeme} (hreads : Reads .start (atoms ls))
    (hnonempty : ∀ l ∈ ls, l.text ≠ [])
    (hmaximal : ls.IsChain fun l m => ¬(l.kind = .code ∧ m.kind = .code)) :
    IsPartition (script ls) (locate 0 ls) where
  covers := flatMap_text_locate 0 ls
  nonempty := by
    intro s hs
    obtain ⟨before, l, behind, rfl, rfl⟩ := exists_of_mem_locate hs
    exact hnonempty l (List.mem_append_right _ (.head _))
  start_eq := by
    intro before s behind hsegments
    rw [start_eq_of_locate hsegments, Nat.zero_add]
  slice_eq := by
    intro s hs
    obtain ⟨before, l, behind, rfl, rfl⟩ := exists_of_mem_locate hs
    rw [script_append, script_cons, ← List.append_assoc, Segment.stop, Nat.zero_add]
    exact Text.slice?_append (script before) l.text (script behind)
  maximal := by
    have hkinds : ((locate 0 ls).map (·.kind)).IsChain fun k k' => ¬(k = .code ∧ k' = .code) := by
      rw [map_kind_locate]
      exact (List.isChain_map _).mpr hmaximal
    exact (List.isChain_map _).mp hkinds
  code := by
    intro s hs hcode
    obtain ⟨before, ⟨kind, text⟩, behind, rfl, rfl⟩ := exists_of_mem_locate hs
    obtain rfl : kind = .code := hcode
    rw [atoms, List.flatMap_append, List.flatMap_cons, Lexeme.atoms_code] at hreads
    exact code_free_of_reads hreads.append_right

/-- Scanning a source byte by byte never cuts a character in two, and the segments of a source that
scans partition it. -/
theorem scan_partitions (source : List Char) :
    scanBytes source = some (scan source) ∧
      ∀ segments, scan source = .ok segments → IsPartition source segments := by
  refine ⟨scanBytes_eq source, fun segments h => ?_⟩
  have hlex := lex_atoms true source
  simp only [scan] at h
  split at h
  · next hnone =>
    obtain rfl := Except.ok.inj h
    rw [hnone] at hlex
    obtain ⟨hreads, hscript⟩ := readAtoms_eq_iff.mp hlex.symm
    -- Joining code makes lexemes that `lex` would not find, but their atoms are the same.
    rw [← atoms_joinCode] at hreads hscript
    rw [script_atoms] at hscript
    have hpartition :=
      isPartition_locate hreads (joinCode_text_ne_nil (lex_text_ne_nil true source))
      (isChain_joinCode _)
    rwa [hscript] at hpartition
  · cases h

/-- A backslash before a character of several bytes protects the first of them only. -/
theorem scan_partitions_escaped :
    scan "é = '\\€' // ü".toList
        = .ok [⟨.code, 0, "é = ".toList⟩, ⟨.string, 5, "'\\€'".toList⟩, ⟨.code, 11, [' ']⟩,
          ⟨.lineComment, 12, "// ü".toList⟩] ∧
      IsPartition "é = '\\€' // ü".toList
        [⟨.code, 0, "é = ".toList⟩, ⟨.string, 5, "'\\€'".toList⟩, ⟨.code, 11, [' ']⟩,
          ⟨.lineComment, 12, "// ü".toList⟩] := by
  have hscan : scan "é = '\\€' // ü".toList
      = .ok [⟨.code, 0, "é = ".toList⟩, ⟨.string, 5, "'\\€'".toList⟩, ⟨.code, 11, [' ']⟩,
        ⟨.lineComment, 12, "// ü".toList⟩] := by
    decide +kernel
  exact ⟨hscan, (scan_partitions _).2 _ hscan⟩

end Script

end LocaleScript
