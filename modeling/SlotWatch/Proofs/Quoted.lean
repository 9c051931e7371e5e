import SlotWatch.Toml.Quoted
import SlotWatch.Toml.Scan

/-!
# SlotWatch.Proofs.Quoted

Reading a quoted text back, whatever it holds.

1. In double quotes a reader undoes escapes one by one (`Unescapes`), so the escaped form of
   a character reads as that character.
2. A reader of a text in three quotes lets one or two of them pass, and at the end of the
   text takes them for part of it (`Triple`).  A text is `Spelled` if it is written so that
   no third quote passes unescaped.
3. Each of the four forms is then read back under what is checked before it is chosen, and
   these checks leave a form for every text (`scalar?_quote`).
-/

namespace SlotWatch.Toml

/-- What reads the rest of a text. -/
abbrev TextReader := List Char → Option (List Char × List Char)

/-! ## characters that need no escape -/

/-- A character that needs no numbered escape is plain. -/
theorem isPlain_of_not_numbered {c : Char} (h : ¬(c.toNat < 0x20 ∨ c.toNat = 0x7F)) :
    isPlain c = true := by
  simp only [isPlain, Bool.or_eq_true, Bool.and_eq_true, decide_eq_true_eq, bne_iff_ne]
  omega

theorem isPlain_of_not_isControl {c : Char} (h : isControl c = false) (hl : c ≠ '\n') :
    isPlain c = true := by
  simp only [isControl, Bool.or_eq_false_iff, Bool.and_eq_false_iff, decide_eq_false_iff_not,
    bne_eq_false_iff_eq, beq_eq_false_iff_ne] at h
  obtain ⟨hlow, hdel⟩ := h
  simp only [isPlain, Bool.or_eq_true, decide_eq_true_eq, Bool.and_eq_true, bne_iff_ne]
  rcases hlow with (hlow | htab) | hline
  · exact .inr ⟨by omega, hdel⟩
  · exact .inl htab
  · exact absurd hline hl

/-! ## escapes -/

/-- The numbered escape of a control character stands for that character. -/
theorem numbered?_upperHex : ∀ n < 128,
    numbered? (Text.upperHex 4 n) = some (Char.ofNat n) ∧ (Text.upperHex 4 n).length = 4 := by
  decide

/-- How a character other than a quote or a line feed is written in double quotes: by a
letter, by its number, or as it stands. -/
theorem escapeControl_cases (c : Char) :
    (∃ e, escapeControl c = ['\\', e] ∧ simpleEscape? e = some c) ∨
    (∃ digits, escapeControl c = '\\' :: 'u' :: digits ∧ digits.length = 4 ∧
      numbered? digits = some c) ∨
    (escapeControl c = [c] ∧ isPlain c = true ∧ c ≠ '\\') := by
  unfold escapeControl
  split
  · next hc => exact .inl ⟨'b', rfl, by rw [hc]; rfl⟩
  split
  · next hc => exact .inl ⟨'t', rfl, by rw [hc]; rfl⟩
  split
  · next hc => exact .inl ⟨'f', rfl, by rw [hc]; rfl⟩
  split
  · next hc => exact .inl ⟨'r', rfl, by rw [hc]; rfl⟩
  split
  · next hc => exact .inl ⟨'\\', rfl, by rw [hc]; rfl⟩
  split
  · next hnum =>
      obtain ⟨hvalue, hlen⟩ := numbered?_upperHex c.toNat (by omega)
      rw [Char.ofNat_toNat] at hvalue
      exact .inr (.inl ⟨_, rfl, hlen, hvalue⟩)
  · next hslash hnum => exact .inr (.inr ⟨rfl, isPlain_of_not_numbered hnum, hslash⟩)

/-- A character's written form begins with one that needs no escape. -/
theorem escapeControl_eq_cons {c : Char} (hq : c ≠ '"') :
    ∃ d tail, escapeControl c = d :: tail ∧ isPlain d = true ∧ d ≠ '"' := by
  rcases escapeControl_cases c with ⟨e, heq, -⟩ | ⟨digits, heq, -⟩ | ⟨heq, hplain, -⟩
  · exact ⟨'\\', [e], heq, rfl, by decide⟩
  · exact ⟨'\\', 'u' :: digits, heq, rfl, by decide⟩
  · exact ⟨c, [], heq, hplain, hq⟩

/-- A reader that undoes the escapes of a text in double quotes. -/
structure Unescapes (read : TextReader) : Prop where
  /-- A character that needs no escape stands for itself. -/
  plain : isPlain c = true → c ≠ '"' → c ≠ '\\' → read (c :: rest) = before c (read rest)
  simple : simpleEscape? e = some c → read ('\\' :: e :: rest) = before c (read rest)
  numbered : digits.length = 4 → numbered? digits = some c →
    read ('\\' :: 'u' :: (digits ++ rest)) = before c (read rest)

/-- **The written form of a character reads as the character.** -/
theorem Unescapes.escapeControl {read : TextReader} (h : Unescapes read) {c : Char}
    (hq : c ≠ '"') (rest : List Char) :
    read (escapeControl c ++ rest) = before c (read rest) := by
  rcases escapeControl_cases c with ⟨e, heq, he⟩ | ⟨digits, heq, hlen, hvalue⟩ | ⟨heq, hplain, hs⟩
  · rw [heq]
    exact h.simple he
  · rw [heq]
    exact h.numbered hlen hvalue
  · rw [heq]
    exact h.plain hplain hq hs

/-- Between double quotes escapes are undone. -/
theorem basicText_unescapes : Unescapes basicText where
  plain hp hq hs := by
    rw [basicText]
    · rw [if_pos ⟨hp, hs⟩]
    all_goals simp_all
  simple he := by
    rw [basicText]
    · rw [he]; rfl
    all_goals
      intros
      simp_all [simpleEscape?]
  numbered {digits _ rest} hlen hn := by
    match digits, hlen with
    | [a, b, c, d], _ => simp [basicText, hn]

/-- An escape other than a numbered one joins no lines. -/
theorem joinsLines_simpleEscape {e c : Char} (he : simpleEscape? e = some c)
    (rest : List Char) : joinsLines (e :: rest) = false := by
  unfold simpleEscape? at he
  split at he <;> simp_all [joinsLines, skipBlanks, isBlank, lineBreak?]

/-- Between three double quotes escapes are undone, also after a backslash. -/
theorem longBasicText_unescapes : Unescapes (longBasicText false) where
  plain {c _} hp hq hs := by
    have hr : c ≠ '\r' := by
      rintro rfl
      exact absurd hp (by decide)
    rw [longBasicText]
    · rw [if_neg (by simp), if_pos (.inl ⟨hp, hs⟩)]
    all_goals simp_all
  simple he := by
    rw [longBasicText]
    · rw [joinsLines_simpleEscape he, he]; rfl
    all_goals
      intros
      simp_all [simpleEscape?]
  numbered {digits _ rest} hlen hn := by
    match digits, hlen with
    | [a, b, c, d], _ => simp [longBasicText, hn]

/-! ## between single quotes -/

/-- A text that is escaped reads back up to its closing quote. -/
theorem basicText_escapeBasic (cs rest : List Char) :
    basicText (cs.flatMap escapeBasic ++ '"' :: rest) = some (cs, rest) := by
  induction cs with
  | nil => simp [basicText]
  | cons c cs ih =>
      have hc : basicText (escapeBasic c ++ (cs.flatMap escapeBasic ++ '"' :: rest)) =
          before c (basicText (cs.flatMap escapeBasic ++ '"' :: rest)) := by
        unfold escapeBasic
        split
        · next hq =>
            subst hq
            exact basicText_unescapes.simple rfl
        split
        · next hl =>
            subst hl
            exact basicText_unescapes.simple rfl
        · next hq hl => exact basicText_unescapes.escapeControl hq _
      rw [List.flatMap_cons, List.append_assoc, hc, ih]
      rfl

/-- A text without single quotes reads back as it stands. -/
theorem literalText_append {cs : List Char}
    (h : ∀ c ∈ cs, isPlain c = true ∧ c ≠ '\'') (rest : List Char) :
    literalText (cs ++ '\'' :: rest) = some (cs, rest) := by
  induction cs with
  | nil => simp [literalText]
  | cons c cs ih =>
      obtain ⟨hc, hcs⟩ := List.forall_mem_cons.mp h
      rw [List.cons_append, literalText, if_pos hc.1, ih hcs]
      · rfl
      · exact hc.2

/-! ## between three quotes -/

/-- A reader of a text in three quotes `q`. -/
structure Triple (q : Char) (read : TextReader) : Prop where
  /-- Up to two quotes before the closing ones belong to the text. -/
  close : run ≤ 2 → rest.head? ≠ some q →
    read (List.replicate run q ++ q :: q :: q :: rest) = some (List.replicate run q, rest)
  /-- A quote that is not the first of three stands for itself. -/
  pass : (∀ more, rest ≠ q :: q :: more) → read (q :: rest) = before q (read rest)

/-- `Spelled q read run cs written`: after `run` quotes, the text `cs` is written so that no
three quotes stand together, and `read` knows the written form of each other character. -/
inductive Spelled (q : Char) (read : TextReader) : Nat → List Char → List Char → Prop where
  | nil : run ≤ 2 → Spelled q read run [] []
  | quote : Spelled q read (run + 1) cs written →
      Spelled q read run (q :: cs) (q :: written)
  | other (form : List Char) : run ≤ 2 → (∀ rest, (form ++ rest).head? ≠ some q) →
      (∀ rest, read (form ++ rest) = before c (read rest)) →
      Spelled q read 0 cs written →
      Spelled q read run (c :: cs) (form ++ written)

/-- Up to two quotes stand for themselves before something else. -/
theorem Triple.pass_run {q : Char} {read : TextReader} (h : Triple q read) {run : Nat}
    (hrun : run ≤ 2) {rest : List Char} (hrest : rest.head? ≠ some q) :
    read (List.replicate run q ++ rest) =
      (read rest).map fun (text, rest) => (List.replicate run q ++ text, rest) := by
  have hone : read (q :: rest) = before q (read rest) := by
    refine h.pass fun more heq => ?_
    simp [heq] at hrest
  have htwo : read (q :: q :: rest) = before q (read (q :: rest)) := by
    refine h.pass fun more heq => ?_
    simp_all
  match run, hrun with
  | 0, _ => simp
  | 1, _ => exact hone
  | 2, _ =>
      show read (q :: q :: rest) = _
      rw [htwo, hone]
      cases read rest <;> rfl

/-- **A text in three quotes is read up to its closing quotes.** -/
theorem Spelled.read {q : Char} {read : TextReader} (hread : Triple q read) {run : Nat}
    {cs written : List Char} (h : Spelled q read run cs written) {rest : List Char}
    (hrest : rest.head? ≠ some q) :
    read (List.replicate run q ++ (written ++ q :: q :: q :: rest)) =
      some (List.replicate run q ++ cs, rest) := by
  -- The quotes of the current run stay in front, as they may yet be the closing ones.
  induction h with
  | nil hrun => simpa using hread.close hrun hrest
  | quote _ ih => simpa [List.replicate_succ', List.append_assoc] using ih
  | other form hrun hform hc _ ih =>
      simp only [List.replicate_zero, List.nil_append] at ih
      rw [List.append_assoc, hread.pass_run hrun (hform _), hc, ih]
      rfl

/-- Between three double quotes a text goes on until three of them stand together. -/
theorem longBasicText_triple : Triple '"' (longBasicText false) where
  close {run rest} hrun hrest := by
    -- The patterns for longer runs come first, so `rest` must not lengthen this one.
    match run, hrun with
    | 2, _ => simp [longBasicText, List.replicate]
    | 1, _ =>
        show longBasicText false ('"' :: '"' :: '"' :: '"' :: rest) = _
        rw [longBasicText]
        · rfl
        · rintro _ rfl
          simp at hrest
    | 0, _ =>
        show longBasicText false ('"' :: '"' :: '"' :: rest) = _
        rw [longBasicText]
        · rfl
        all_goals
          rintro _ rfl
          simp at hrest
  pass h := by
    rw [longBasicText]
    · simp [isPlain]
    all_goals simp_all

/-- Between three single quotes a text goes on until three of them stand together. -/
theorem longLiteralText_triple : Triple '\'' longLiteralText where
  close {run rest} hrun hrest := by
    match run, hrun with
    | 2, _ => simp [longLiteralText, List.replicate]
    | 1, _ =>
        show longLiteralText ('\'' :: '\'' :: '\'' :: '\'' :: rest) = _
        rw [longLiteralText]
        · rfl
        · rintro _ rfl
          simp at hrest
    | 0, _ =>
        show longLiteralText ('\'' :: '\'' :: '\'' :: rest) = _
        rw [longLiteralText]
        · rfl
        all_goals
          rintro _ rfl
          simp at hrest
  pass h := by
    rw [longLiteralText]
    · simp [isPlain]
    all_goals simp_all

/-- Every third quote of a run is escaped. -/
theorem spelled_escapeLong {run : Nat} (hrun : run ≤ 2) (cs : List Char) :
    Spelled '"' (longBasicText false) run cs (escapeLong run cs) := by
  induction cs generalizing run with
  | nil => exact .nil hrun
  | cons c cs ih =>
      unfold escapeLong
      split
      · next hq =>
          subst hq
          split
          · exact .other ['\\', '"'] hrun (by simp)
              (fun _ => longBasicText_unescapes.simple rfl) (ih (by omega))
          · exact .quote (ih (by omega))
      split
      · next hl =>
          subst hl
          exact .other ['\n'] hrun (by simp) (by simp [longBasicText]) (ih (by omega))
      · next hq hl =>
          refine .other _ hrun (fun rest => ?_) (longBasicText_unescapes.escapeControl hq)
            (ih (by omega))
          obtain ⟨d, tail, hd, -, hne⟩ := escapeControl_eq_cons hq
          simpa [hd] using hne

/-- The longest run is no shorter than the one that it begins with. -/
theorem le_longestRun (q : Char) (run : Nat) (cs : List Char) : run ≤ longestRun q run cs := by
  induction cs generalizing run with
  | nil => exact Nat.le_refl run
  | cons c cs ih =>
      unfold longestRun
      split
      · exact Nat.le_of_succ_le (ih (run + 1))
      · exact Nat.le_max_left _ _

/-- Where no run is longer than none there is no quote. -/
theorem not_mem_of_longestRun_eq_zero {q : Char} {cs : List Char} (h : longestRun q 0 cs = 0) :
    q ∉ cs := by
  induction cs with
  | nil => simp
  | cons c cs ih =>
      unfold longestRun at h
      split at h
      · next hq =>
          have hle := le_longestRun q (0 + 1) cs
          omega
      · next hq =>
          have hcs : longestRun q 0 cs = 0 := by omega
          simp [Ne.symm hq, ih hcs]

/-- A text without escapes may stand in three single quotes if no three of them stand together. -/
theorem spelled_literal {run : Nat} {cs : List Char} (hrun : longestRun '\'' run cs ≤ 2)
    (hcs : ∀ c ∈ cs, isPlain c = true ∨ c = '\n') :
    Spelled '\'' longLiteralText run cs cs := by
  induction cs generalizing run with
  | nil => exact .nil hrun
  | cons c cs ih =>
      obtain ⟨hc, htail⟩ := List.forall_mem_cons.mp hcs
      unfold longestRun at hrun
      split at hrun
      · next hq =>
          subst hq
          exact .quote (ih hrun htail)
      · next hq =>
          refine .other [c] (by omega) (by simpa using hq) (fun rest => ?_)
            (ih (by omega) htail)
          show longLiteralText (c :: rest) = _
          have hr : c ≠ '\r' := by
            rintro rfl
            exact absurd hc (by decide)
          rw [longLiteralText]
          · rw [if_pos hc]
          all_goals simp_all

/-! ## the line break after opening quotes -/

theorem ne_of_isLong_eq_false {cs : List Char} (h : isLong cs = false) {c : Char}
    (hc : c ∈ cs) : c ≠ '\n' := by
  rintro rfl
  simp [isLong, hc] at h

/-- No line break is dropped where the text begins with something else. -/
theorem dropBreak_of_plain {cs : List Char} (h : ∀ c ∈ cs.head?, isPlain c = true) :
    dropBreak cs = cs := by
  unfold dropBreak lineBreak?
  split
  · exact absurd (h '\n' rfl) (by decide)
  · exact absurd (h '\r' rfl) (by decide)
  · rfl

/-- What is dropped after opening quotes is what was written there. -/
theorem dropBreak_opening {cs body : List Char}
    (h : isLong cs = false → ∀ c ∈ body.head?, isPlain c = true) :
    dropBreak (opening cs ++ body) = body := by
  unfold opening
  split
  · rfl
  · next hlong => exact dropBreak_of_plain (h (by simpa using hlong))

/-! ## the four forms -/

/-- A text in one quote does not begin like one in three. -/
theorem append_quote_ne {q : Char} {body rest : List Char} (hbody : ∀ c ∈ body.head?, c ≠ q)
    (hrest : rest.head? ≠ some q) (more : List Char) : body ++ q :: rest ≠ q :: q :: more := by
  cases body with
  | nil =>
      intro heq
      simp_all
  | cons c body =>
      have hc : c ≠ q := hbody c rfl
      simp [hc]

/-- A text between double quotes reads back. -/
theorem string?_basic (cs : List Char) {rest : List Char} (hrest : rest.head? ≠ some '"') :
    string? (quoteAs .basic cs ++ rest) = some (String.ofList cs, rest) := by
  have hhead : ∀ c ∈ (cs.flatMap escapeBasic).head?, c ≠ '"' := by
    cases cs with
    | nil => simp
    | cons c cs =>
        rw [List.flatMap_cons]
        unfold escapeBasic
        split
        · simp
        split
        · simp
        · next hq _ =>
            obtain ⟨d, tail, hd, -, hne⟩ := escapeControl_eq_cons hq
            simpa [hd] using hne
  have hone := append_quote_ne hhead hrest
  simp only [quoteAs, List.cons_append, List.append_assoc, List.nil_append]
  rw [string?, basicText_escapeBasic]
  · rfl
  · exact hone

/-- A text between single quotes reads back, if it holds none and only plain characters. -/
theorem string?_literal {cs : List Char} (h : ∀ c ∈ cs, isPlain c = true ∧ c ≠ '\'')
    {rest : List Char} (hrest : rest.head? ≠ some '\'') :
    string? (quoteAs .literal cs ++ rest) = some (String.ofList cs, rest) := by
  have hhead : ∀ c ∈ cs.head?, c ≠ '\'' := fun c hc => (h c (List.mem_of_head? hc)).2
  have hone := append_quote_ne hhead hrest
  simp only [quoteAs, List.cons_append, List.append_assoc, List.nil_append]
  rw [string?, literalText_append h]
  · rfl
  · exact hone

/-- A text between three double quotes reads back. -/
theorem string?_longBasic (cs : List Char) {rest : List Char} (hrest : rest.head? ≠ some '"') :
    string? (quoteAs .longBasic cs ++ rest) = some (String.ofList cs, rest) := by
  have hhead : isLong cs = false →
      ∀ c ∈ (escapeLong 0 cs ++ '"' :: '"' :: '"' :: rest).head?, isPlain c = true := by
    intro hlong
    cases cs with
    | nil => simp [escapeLong, isPlain]
    | cons c cs =>
        have hl := ne_of_isLong_eq_false hlong List.mem_cons_self
        unfold escapeLong
        split
        · simp [isPlain]
        · next hq =>
            obtain ⟨d, tail, hd, hplain, -⟩ := escapeControl_eq_cons hq
            simpa [hl, hd] using hplain
  have hread := (spelled_escapeLong (Nat.zero_le 2) cs).read longBasicText_triple hrest
  simp only [List.replicate_zero, List.nil_append] at hread
  simp [quoteAs, string?, dropBreak_opening hhead, hread, string?.text]

/-- A text between three single quotes reads back, if at most two of them stand together. -/
theorem string?_longLiteral {cs : List Char} (h : ∀ c ∈ cs, isPlain c = true ∨ c = '\n')
    (hrun : longestRun '\'' 0 cs ≤ 2) {rest : List Char} (hrest : rest.head? ≠ some '\'') :
    string? (quoteAs .longLiteral cs ++ rest) = some (String.ofList cs, rest) := by
  have hhead : isLong cs = false →
      ∀ c ∈ (cs ++ '\'' :: '\'' :: '\'' :: rest).head?, isPlain c = true := by
    intro hlong
    cases cs with
    | nil => simp [isPlain]
    | cons c cs =>
        have hl := ne_of_isLong_eq_false hlong List.mem_cons_self
        simpa using (h c List.mem_cons_self).resolve_right hl
  have hread := (spelled_literal hrun h).read longLiteralText_triple hrest
  simp only [List.replicate_zero, List.nil_append] at hread
  simp [quoteAs, string?, dropBreak_opening hhead, hread, string?.text]

/-! ## the form of a text -/

/-- What a text must hold to be written in a form: nothing, if there are escapes. -/
def Form.Suits (cs : List Char) : Form → Prop
  | .basic | .longBasic => True
  | .literal => ∀ c ∈ cs, isPlain c = true ∧ c ≠ '\''
  | .longLiteral => (∀ c ∈ cs, isPlain c = true ∨ c = '\n') ∧ longestRun '\'' 0 cs ≤ 2

/-- **A text in a form that suits it is read back**, whatever follows its closing quote but
a quote. -/
theorem string?_quoteAs {form : Form} {cs : List Char} (h : form.Suits cs) {rest : List Char}
    (hdouble : rest.head? ≠ some '"') (hsingle : rest.head? ≠ some '\'') :
    string? (quoteAs form cs ++ rest) = some (String.ofList cs, rest) := by
  cases form with
  | basic => exact string?_basic cs hdouble
  | literal => exact string?_literal h hsingle
  | longBasic => exact string?_longBasic cs hdouble
  | longLiteral => exact string?_longLiteral h.1 h.2 hsingle

/-- A text without controls is plain, line breaks apart. -/
theorem isPlain_of_no_control {cs : List Char} (h : cs.any isControl = false) :
    ∀ c ∈ cs, isPlain c = true ∨ c = '\n' := by
  intro c hc
  by_cases hl : c = '\n'
  · exact .inr hl
  · have hcontrol : isControl c = false := by simpa using List.any_eq_false.mp h c hc
    exact .inl (isPlain_of_not_isControl hcontrol hl)

/-- **The form of a text suits it.** -/
theorem Form.suits_of (cs : List Char) : (Form.of cs).Suits cs := by
  unfold Form.of
  simp only
  split
  · trivial
  split
  · next h =>
      simp only [Bool.and_eq_true, Bool.not_eq_true', beq_iff_eq] at h
      obtain ⟨⟨hescaping, hsingle⟩, hlong⟩ := h
      intro c hc
      have hq : c ≠ '\'' := by
        rintro rfl
        exact not_mem_of_longestRun_eq_zero hsingle hc
      have hl := ne_of_isLong_eq_false hlong hc
      exact ⟨(isPlain_of_no_control hescaping c hc).resolve_right hl, hq⟩
  split
  · trivial
  split
  · next h =>
      simp only [Bool.and_eq_true, Bool.not_eq_true', decide_eq_true_eq] at h
      exact ⟨isPlain_of_no_control h.1, h.2⟩
  split
  · trivial
  · trivial

/-- A quoted text begins with a quote. -/
theorem quote_eq_cons (cs : List Char) :
    ∃ c tail, quote cs = c :: tail ∧ (c = '"' ∨ c = '\'') := by
  unfold quote quoteAs
  split
  · exact ⟨_, _, rfl, .inl rfl⟩
  · exact ⟨_, _, rfl, .inr rfl⟩
  · exact ⟨_, _, rfl, .inl rfl⟩
  · exact ⟨_, _, rfl, .inr rfl⟩

/-- **A quoted text is read back**, whatever it holds. -/
theorem scalar?_quote (cs : List Char) {rest : List Char}
    (hdouble : rest.head? ≠ some '"') (hsingle : rest.head? ≠ some '\'') :
    scalar? (quote cs ++ rest) = some (.string (String.ofList cs), rest) := by
  have hread : string? (quote cs ++ rest) = some (String.ofList cs, rest) :=
    string?_quoteAs (Form.suits_of cs) hdouble hsingle
  obtain ⟨c, tail, hcons, hc⟩ := quote_eq_cons cs
  rw [hcons, List.cons_append] at hread ⊢
  rcases hc with rfl | rfl
  · rw [scalar?, hread]
    rfl
  · rw [scalar?, hread]
    rfl

example : quote "one \"two\"\nthree".toList = "\"\"\"\none \"two\"\nthree\"\"\"".toList := by
  rfl

end SlotWatch.Toml
