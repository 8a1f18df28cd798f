import LocaleScript.Proofs.Script.Enclosure
import LocaleScript.Proofs.Script.Nesting
import LocaleScript.Proofs.Script.Reread

/-!
# Scripts in their scope

The scope around a script consists of plain code on lines of its own. So the literals and comments
of the script are those of the compiled script, moved by the length of the line in front, the
brackets balance again (`wrap_keeps_regions`), and condensing the compiled script gives the
condensed script between the two lines of the scope (`minify_wrap`).
-/

namespace LocaleScript.Script

/-! ## Literals and comments -/

/-- The segment in a text that begins `n` bytes earlier. -/
def Segment.shift (n : Nat) (s : Segment) : Segment :=
  { s with start := s.start + n }

/-- The literals and comments of a script, each where it stands. -/
def regionsOf (segments : List Segment) : List Segment :=
  segments.filter (·.kind != .code)

theorem regionsOf_append (ss ts : List Segment) :
    regionsOf (ss ++ ts) = regionsOf ss ++ regionsOf ts :=
  List.filter_append ..

theorem regionsOf_map_shift (n : Nat) (ss : List Segment) :
    regionsOf (ss.map (Segment.shift n)) = (regionsOf ss).map (Segment.shift n) :=
  List.filter_map

theorem locate_add (start n : Nat) (ls : List Lexeme) :
    locate (start + n) ls = (locate start ls).map (Segment.shift n) := by
  induction ls generalizing start with
  | nil => rfl
  | cons l ls ih =>
    rw [locate, locate, List.map_cons, ← ih, Nat.add_right_comm]
    rfl

theorem regionsOf_eq_flatMap (segments : List Segment) :
    regionsOf segments = segments.flatMap fun s => if s.kind = .code then [] else [s] := by
  induction segments with
  | nil => rfl
  | cons s segments ih =>
    rw [List.flatMap_cons, ← ih, regionsOf, List.filter_cons]
    by_cases hs : s.kind = .code <;> simp [hs, regionsOf]

theorem regionsOf_locate_map_codeChar (start : Nat) (cs : List Char) :
    regionsOf (locate start (cs.map codeChar)) = [] := by
  induction cs generalizing start with
  | nil => rfl
  | cons c cs ih =>
    rw [List.map_cons, locate, regionsOf, List.filter_cons_of_neg (by simp)]
    exact ih _

theorem regionsOf_locate_atoms (start : Nat) (ls : List Lexeme) :
    regionsOf (locate start ls) = regionsOf (locate start (atoms ls)) := by
  rw [regionsOf_eq_flatMap, regionsOf_eq_flatMap]
  refine flatMap_locate_atoms (fun start text => ?_) start ls
  rw [← regionsOf_eq_flatMap, regionsOf_locate_map_codeChar]
  rfl

theorem regionsOf_closed {r : Reading} {as : List Lexeme} (h : Reads r as) (start : Nat) :
    regionsOf (locate start (closed as)) = regionsOf (locate start as) := by
  rcases closed_cases h with ⟨hnil, hclosed⟩ | ⟨init, hclosed, rfl | rfl⟩
  · rw [hclosed, hnil]
  · rw [hclosed, locate_append, regionsOf_append]
    exact List.append_nil _
  · rw [hclosed]

/-- The bytes that a scope puts in front of a script. -/
def leadLength (bare : Bool) : Nat :=
  if bare then 0 else Text.byteLength scopeHead.toList

theorem regionsOf_enclosed (bare : Bool) {r : Reading} {as : List Lexeme} (h : Reads r as) :
    regionsOf (locate 0 (enclosed bare as))
      = (regionsOf (locate 0 as)).map (Segment.shift (leadLength bare)) := by
  unfold enclosed leadLength
  cases bare with
  | true =>
    have hid : Segment.shift 0 = id := rfl
    simp only [reduceIte, hid, List.map_id]
    exact regionsOf_closed h 0
  | false =>
    simp only [Bool.false_eq_true, reduceIte, locate_append, regionsOf_append,
      regionsOf_locate_map_codeChar, script_map_codeChar, List.nil_append, locate_add 0,
      regionsOf_map_shift, regionsOf_closed h, List.map_nil, List.append_nil]

/-! ## Brackets -/

theorem nest_closed {r : Reading} {as : List Lexeme} (h : Reads r as) (opened : List Char) :
    nest opened (codeOf (closed as)) = nest opened (codeOf as) := by
  have hbreak (opened : List Char) : nest opened (codeOf [codeChar '\n']) = some opened := rfl
  rcases closed_cases h with ⟨hnil, hclosed⟩ | ⟨init, hclosed, rfl | rfl⟩
  · rw [hclosed, hnil]
  · rw [hclosed, codeOf_append, nest_append]
    simp only [hbreak]
    exact Option.bind_fun_some _
  · rw [hclosed]

/-- The scope closes the brackets that it opens. -/
theorem nest_enclosed (bare : Bool) {r : Reading} {as : List Lexeme} (h : Reads r as)
    (hnest : nest [] (codeOf as) = some []) : nest [] (codeOf (enclosed bare as)) = some [] := by
  unfold enclosed
  cases bare with
  | true =>
    rw [← hnest]
    exact nest_closed h []
  | false =>
    have hhead : nest [] scopeHead.toList = some ['{', '('] := by
      rw [scopeHead_eq]
      decide
    have htail : nest ['{', '('] scopeTail.toList = some [] := by
      rw [scopeTail_eq]
      decide
    have hinside := nest_under hnest ['{', '(']
    rw [List.nil_append] at hinside
    simp only [Bool.false_eq_true, reduceIte, codeOf_append, codeOf_map_codeChar, nest_append,
      hhead, Option.bind_some, nest_closed h, hinside, htail]

/-! ## The scope is transparent -/

/-- A script that is accepted once is accepted for every request. The compiled script scans; its
literals and comments are those of the script, behind the line that opens the scope; its brackets
balance; and it is accepted as a script again. -/
theorem wrap_keeps_regions {source : String} {accepted : Request} {first : Compiled}
    (h : wrap source accepted = .ok first) (request : Request) :
    ∃ compiled segments segments', wrap source request = .ok compiled ∧
      scan source.toList = .ok segments ∧ scan compiled.code.toList = .ok segments' ∧
      regionsOf segments' = (regionsOf segments).map (Segment.shift (leadLength request.bare)) ∧
      unbalanced? [] (codeBrackets segments') = none ∧
      ∀ again, ∃ compiled', wrap compiled.code again = .ok compiled' := by
  obtain ⟨hcheck, -⟩ := of_wrap h
  obtain ⟨compiled, hwrap, hcode⟩ := wrap_of_checkBrackets hcheck request
  obtain ⟨as, hreads, hscript, hnest⟩ := checkBrackets_eq_ok_iff.mp hcheck
  have hreads' := reads_enclosed request.bare hreads
  have hscript' := script_enclosed request.bare hscript
  have hnest' := nest_enclosed request.bare hreads hnest
  obtain ⟨ls, hscan, hatoms⟩ := scan_script hreads
  obtain ⟨ls', hscan', hatoms'⟩ := scan_script hreads'
  rw [hscript] at hscan
  rw [hscript', ← hcode] at hscan'
  refine ⟨compiled, _, _, hwrap, hscan, hscan', ?_, ?_, fun again => ?_⟩
  · rw [regionsOf_locate_atoms, regionsOf_locate_atoms 0 ls, hatoms, hatoms']
    exact regionsOf_enclosed request.bare hreads
  · rw [unbalanced?_codeBrackets_eq_none_iff, ← codeOf_atoms, hatoms']
    exact hnest'
  · have hcheck' : checkBrackets compiled.code.toList = .ok () := by
      rw [hcode]
      exact checkBrackets_eq_ok_iff.mpr ⟨_, hreads', hscript', hnest'⟩
    obtain ⟨compiled', hwrap', -⟩ := wrap_of_checkBrackets hcheck' again
    exact ⟨compiled', hwrap'⟩

/-- A regular expression and a comment without a line break behind it. -/
theorem wrap_keeps_regions_comment :
    ∃ compiled segments', wrap "a = /b/ // c" ⟨false, false, ""⟩ = .ok compiled ∧
      scan compiled.code.toList = .ok segments' ∧
      regionsOf segments' = [⟨.regex, 18, "/b/".toList⟩, ⟨.lineComment, 22, "// c".toList⟩] ∧
      unbalanced? [] (codeBrackets segments') = none ∧
      ∀ again, ∃ compiled', wrap compiled.code again = .ok compiled' := by
  have hscan : scan "a = /b/ // c".toList = .ok [⟨.code, 0, "a = ".toList⟩,
      ⟨.regex, 4, "/b/".toList⟩, ⟨.code, 7, " ".toList⟩, ⟨.lineComment, 8, "// c".toList⟩] := by
    decide +kernel
  have haccepted : wrap "a = /b/ // c" ⟨true, false, ""⟩ = .ok _ := wrap_bare (by decide +kernel) ""
  obtain ⟨compiled, segments, segments', hwrap, hscan', hscan'', hregions, hbrackets, hagain⟩ :=
    wrap_keeps_regions haccepted ⟨false, false, ""⟩
  obtain rfl := Except.ok.inj (hscan.symm.trans hscan')
  exact ⟨compiled, segments', hwrap, hscan'', hregions.trans (by decide +kernel), hbrackets, hagain⟩

/-! ## Condensing in the scope -/

theorem pieces_locate_map_codeChar (condenser : Condenser) (start : Nat) (cs : List Char) :
    condenser.pieces (locate start (cs.map codeChar)) = cs.map Condenser.codePiece := by
  induction cs generalizing start with
  | nil => rfl
  | cons c cs ih =>
    rw [List.map_cons, pieces_locate_cons, ih]
    rfl

/-- Pieces hang on texts alone, wherever these stand. -/
theorem pieces_locate (condenser : Condenser) (start : Nat) (as : List Lexeme) :
    condenser.pieces (locate start as) = condenser.pieces (locate 0 as) := by
  induction as generalizing start with
  | nil => rfl
  | cons a as ih =>
    rw [pieces_locate_cons, pieces_locate_cons, ih, ih (0 + _)]
    rfl

/-- No token ends in a newline. -/
def EndsInInk (ps : List Piece) : Prop :=
  ∀ text, .token text ∈ ps → ∃ c, text.getLast? = some c ∧ c ≠ '\n'

theorem endsInInk_pieces (condenser : Condenser) {r : Reading} {as : List Lexeme} (h : Reads r as)
    (start : Nat) : EndsInInk (condenser.pieces (locate start as)) := by
  induction h generalizing start with
  | nil => exact fun _ htext => nomatch htext
  | @cons r a as fits _ ih =>
    intro text htext
    rw [pieces_locate_cons] at htext
    rcases List.mem_append.mp htext with htext | htext
    · cases condenser.fate fits with
      | written token last =>
        rw [token.pieces, List.mem_singleton] at htext
        rwa [Piece.token.inj htext]
      | gap gap =>
        rw [gap.pieces, List.mem_singleton] at htext
        cases htext
      | nothing kind _ =>
        rw [Condenser.pieces_of_lineComment kind] at htext
        cases htext
    · exact ih _ text htext

/-- A token is written behind the separator of the gap before it. -/
theorem emit_token_behind (last first : Char) (gap : Gap) (tail : List Char) (rest : List Piece) :
    emit (some last) gap (.token (first :: tail) :: rest)
      = gap.separator last first ++
        (first :: tail ++ emit (first :: tail).getLast? .none rest) := by
  have hlast : (first :: tail).getLast?.or (some last) = (first :: tail).getLast? := by
    rw [List.getLast?_cons, Option.some_or]
  simp only [emit, List.head?_cons, hlast, List.append_assoc]

/-- Behind a line break a script is written as at its beginning. -/
theorem emit_behind_break {last : Char} (hn : last ≠ '\n') {ps : List Piece} (hps : EndsInInk ps)
    (gap : Gap) : emit (some last) .newline ps = '\n' :: emit none gap ps := by
  induction ps generalizing gap with
  | nil => exact emit_end hn .newline
  | cons p ps ih =>
    cases p with
    | gap g =>
      have hmax : Gap.newline.max g = .newline := by cases g <;> rfl
      rw [emit, emit, hmax]
      exact ih (fun text htext => hps text (.tail _ htext)) _
    | token text =>
      obtain ⟨c, hc, -⟩ := hps text (.head _)
      obtain ⟨first, tail, rfl⟩ := List.exists_cons_of_ne_nil (ne_nil_of_getLast? hc)
      rw [emit_first_token, emit_token_behind, Gap.separator, if_neg hn]
      rfl

/-- What is written in front of a line break is written as at the end of a script. -/
theorem emit_before_break {last : Char} (hn : last ≠ '\n') {ps : List Piece} (hps : EndsInInk ps)
    (gap : Gap) {next : List Char} (hnext : next ≠ []) (rest : List Piece) :
    emit (some last) gap (ps ++ .gap .newline :: .token next :: rest)
      = emit (some last) gap ps ++ (next ++ emit next.getLast? .none rest) := by
  induction ps generalizing last gap with
  | nil =>
    obtain ⟨first, tail, rfl⟩ := List.exists_cons_of_ne_nil hnext
    rw [emit_end hn, List.nil_append, emit, gap_max_newline, emit_token_behind, Gap.separator,
      if_neg hn]
  | cons p ps ih =>
    have hps' : EndsInInk ps := fun text htext => hps text (.tail _ htext)
    cases p with
    | gap g => exact ih hn hps' _
    | token text =>
      obtain ⟨c, hc, hn'⟩ := hps text (.head _)
      obtain ⟨first, tail, rfl⟩ := List.exists_cons_of_ne_nil (ne_nil_of_getLast? hc)
      rw [List.cons_append, emit_token_behind, emit_token_behind, hc, ih hn' hps']
      simp only [List.append_assoc]

/-- Behind the line that opens the scope a line break is pending. -/
theorem emit_scopeHead (rest : List Piece) :
    emit none .none (scopeHead.toList.map Condenser.codePiece ++ rest)
      = "(function()\x7b".toList ++ emit (some '{') .newline rest := by
  have hline : "(function()\x7b".toList = _ := String.toList_ofList
  rw [scopeHead_eq, hline]
  rfl

/-- A script whose last line ends is written like the script. -/
theorem emit_closed (condenser : Condenser) {r : Reading} {as : List Lexeme} (h : Reads r as) :
    emit none .none (condenser.pieces (locate 0 (closed as)))
      = emit none .none (condenser.pieces (locate 0 as)) := by
  rcases closed_cases h with ⟨hnil, hclosed⟩ | ⟨init, hclosed, rfl | rfl⟩
  · rw [hclosed, hnil]
  · rw [hclosed, pieces_locate_append]
    exact emit_append_gap _ _ _ _
  · rw [hclosed]

/-- A script whose last line ends has a line break behind all that is written of it. -/
theorem exists_pieces_closed (condenser : Condenser) {r : Reading} {as : List Lexeme}
    (h : Reads r as) : ∃ ps, EndsInInk ps ∧
      emit none .none ps = emit none .none (condenser.pieces (locate 0 as)) ∧
      ∀ rest, emit (some '{') .newline (condenser.pieces (locate 0 (closed as)) ++ rest)
        = emit (some '{') .newline (ps ++ .gap .newline :: rest) := by
  rcases closed_cases h with ⟨rfl, hclosed⟩ | ⟨init, hclosed, hinit⟩
  · refine ⟨[], (fun _ htext => nomatch htext), rfl, fun rest => ?_⟩
    rw [hclosed]
    rfl
  · have hbreak (start : Nat) :
        condenser.pieces (locate start [codeChar '\n']) = [.gap .newline] := rfl
    refine ⟨condenser.pieces (locate 0 init), ?_, ?_, fun rest => ?_⟩
    · intro text htext
      refine endsInInk_pieces condenser (reads_closed h) 0 text ?_
      rw [hclosed, pieces_locate_append]
      exact List.mem_append_left _ htext
    · rcases hinit with rfl | rfl
      · rfl
      · rw [pieces_locate_append, hbreak, emit_append_gap]
    · rw [hclosed, pieces_locate_append, hbreak, List.append_assoc, List.singleton_append]

/-- A script in its scope is written between the lines of the scope. -/
theorem emit_enclosed (condenser : Condenser) {r : Reading} {as : List Lexeme} (h : Reads r as) :
    emit none .none (condenser.pieces (locate 0 (enclosed false as)))
      = "(function()\x7b".toList ++ '\n' :: emit none .none (condenser.pieces (locate 0 as))
        ++ scopeTail.toList := by
  have htail : scopeTail.toList.map Condenser.codePiece
      = .token ['}'] :: (scopeTail.toList.tail).map Condenser.codePiece := by
    rw [scopeTail_eq]
    rfl
  have hrest : ['}'] ++ emit (some '}') .none ((scopeTail.toList.tail).map Condenser.codePiece)
      = scopeTail.toList := by
    rw [scopeTail_eq]
    rfl
  have henclosed : condenser.pieces (locate 0 (enclosed false as))
      = scopeHead.toList.map Condenser.codePiece ++ (condenser.pieces (locate 0 (closed as))
        ++ scopeTail.toList.map Condenser.codePiece) := by
    unfold enclosed
    rw [if_neg (by decide), pieces_locate_append, pieces_locate_append, pieces_locate_map_codeChar,
      pieces_locate_map_codeChar, pieces_locate]
  -- The last line of the script ends, so a line break is pending in front of the last line.
  obtain ⟨ps, hink, hwritten, hpieces⟩ := exists_pieces_closed condenser h
  rw [henclosed, emit_scopeHead, hpieces, htail, emit_before_break (by decide) hink _ (by decide),
    emit_behind_break (by decide) hink .none, hwritten]
  change _ ++ ('\n' :: _ ++ (['}'] ++ emit (some '}') .none _)) = _
  rw [hrest, List.append_assoc]

/-- Condensing a script in its scope gives the condensed script between the lines of the scope;
without a scope it gives the condensed script. -/
theorem minify_wrap {source : String} {accepted : Request} {first : Compiled}
    (h : wrap source accepted = .ok first) (condenser : Condenser) (request : Request) :
    ∃ condensed compiled, condenser.minify source = .ok condensed ∧
      wrap source request = .ok compiled ∧
      condenser.minify compiled.code = .ok
        (if request.bare then condensed
          else "(function()\x7b\n" ++ condensed ++ "\x7d).call(this);\n") := by
  obtain ⟨hcheck, -⟩ := of_wrap h
  obtain ⟨compiled, hwrap, hcode⟩ := wrap_of_checkBrackets hcheck request
  obtain ⟨as, hreads, hscript, -⟩ := checkBrackets_eq_ok_iff.mp hcheck
  refine ⟨String.ofList (emit none .none (condenser.pieces (locate 0 as))), compiled, ?_, hwrap, ?_⟩
  · rw [Condenser.minify, ← hscript, condense_of_reads condenser hreads]
    rfl
  · rw [Condenser.minify, hcode, ← script_enclosed request.bare hscript,
      condense_of_reads condenser (reads_enclosed request.bare hreads)]
    refine congrArg Except.ok ?_
    cases hbare : request.bare with
    | true =>
      rw [if_pos rfl]
      exact congrArg String.ofList (emit_closed condenser hreads)
    | false =>
      rw [if_neg (by decide), emit_enclosed condenser hreads]
      refine String.toList_inj.mp ?_
      have hhead : "(function()\x7b\n".toList = "(function()\x7b".toList ++ ['\n'] := by
        decide +kernel
      simp only [String.toList_append, String.toList_ofList, hhead, List.append_assoc,
        List.singleton_append]
      rfl

/-- A kept comment in front and a dropped one, without a line break, behind. -/
theorem minify_wrap_comments :
    ∃ compiled, wrap "/*! a */ b // c" ⟨false, false, ""⟩ = .ok compiled ∧
      Condenser.minify ⟨[]⟩ compiled.code
        = .ok "(function()\x7b\n/*! a */b\n\x7d).call(this);\n" := by
  have hminify : Condenser.minify ⟨[]⟩ "/*! a */ b // c" = .ok "/*! a */b\n" := by
    decide +kernel
  have haccepted : wrap "/*! a */ b // c" ⟨true, false, ""⟩ = .ok _ :=
    wrap_bare (by decide +kernel) ""
  obtain ⟨condensed, compiled, hcondensed, hwrap, hcompiled⟩ :=
    minify_wrap haccepted ⟨[]⟩ ⟨false, false, ""⟩
  obtain rfl := Except.ok.inj (hminify.symm.trans hcondensed)
  refine ⟨compiled, hwrap, hcompiled.trans ?_⟩
  decide +kernel

end LocaleScript.Script
