import SlotWatch.Toml.Document

/-!
# SlotWatch.Proofs.Document

Reading a document of sections: headers, each with the keys below it.

1. A line is read whole, whatever follows it (`Line`): an empty one, a header, or a key with
   a scalar value.
2. The keys of a section go to the end of the latest table, as long as they are new
   (`Progress.put_within`), and a new header begins the next one.
3. A text of lines is read line by line (`Reads`), so `parse` reads a document if every
   line does its part.
-/

namespace SlotWatch.Toml

/-! ## keys -/

/-- A key that needs no quotes. -/
structure Bare (key : String) : Prop where
  ne_nil : key.toList ≠ []
  all : ∀ c ∈ key.toList, isBare c = true

instance (key : String) : Decidable (Bare key) :=
  decidable_of_iff (key.toList.isEmpty = false ∧ key.toList.all isBare = true)
    ⟨fun h => ⟨by simpa using h.1, List.all_eq_true.mp h.2⟩,
      fun h => ⟨by simpa using h.ne_nil, List.all_eq_true.mpr h.all⟩⟩

theorem ne_of_isBare {c d : Char} (hc : isBare c = true) (hd : isBare d = false) : c ≠ d := by
  rintro rfl
  simp_all

theorem skipBlanks_of_not_blank {c : Char} (h : isBlank c = false) (cs : List Char) :
    skipBlanks (c :: cs) = c :: cs := by
  simp [skipBlanks, h]

theorem not_isBlank_of_isBare {c : Char} (h : isBare c = true) : isBlank c = false := by
  simp [isBlank, ne_of_isBare h (show isBare ' ' = false by decide),
    ne_of_isBare h (show isBare '\t' = false by decide)]

variable {key : String}

theorem Bare.eq_cons (h : Bare key) :
    ∃ c tail, key.toList = c :: tail ∧ isBare c = true := by
  obtain ⟨c, tail, hkey⟩ := List.exists_cons_of_ne_nil h.ne_nil
  exact ⟨c, tail, hkey, h.all c (hkey ▸ List.mem_cons_self)⟩

/-- A bare key is read up to what follows it. -/
theorem Bare.keyPart? (h : Bare key) {after : List Char}
    (hafter : ∀ c ∈ after.head?, isBare c = false) :
    keyPart? (key.toList ++ after) = some (key, after) := by
  have hstop : after.takeWhile isBare = [] ∧ after.dropWhile isBare = after := by
    cases after with
    | nil => exact ⟨rfl, rfl⟩
    | cons d after => simp [hafter d rfl]
  have htake : (key.toList ++ after).takeWhile isBare = key.toList := by
    rw [List.takeWhile_append_of_pos h.all, hstop.1, List.append_nil]
  have hdrop : (key.toList ++ after).dropWhile isBare = after := by
    rw [List.dropWhile_append_of_pos h.all, hstop.2]
  obtain ⟨c, tail, hkey, hc⟩ := h.eq_cons
  have hname : String.ofList (c :: tail) = key := by rw [← hkey, String.ofList_toList]
  rw [hkey, List.cons_append] at htake hdrop ⊢
  rw [Toml.keyPart?, htake]
  · simp [hdrop, hname]
  · simp [ne_of_isBare hc (show isBare '"' = false by decide)]
  · simp [ne_of_isBare hc (show isBare '\'' = false by decide)]

/-- A key without dots is a path of its own. -/
theorem Bare.keyPath? (h : Bare key) {after : List Char}
    (hafter : ∀ c ∈ after.head?, isBare c = false)
    (hdot : ∀ rest, skipBlanks after ≠ '.' :: rest) (room : Nat) :
    keyPath? (room + 1) (key.toList ++ after) = some (([], key), skipBlanks after) := by
  have hskip : skipBlanks (key.toList ++ after) = key.toList ++ after := by
    obtain ⟨c, tail, hkey, hc⟩ := h.eq_cons
    rw [hkey]
    exact skipBlanks_of_not_blank (not_isBlank_of_isBare hc) _
  rw [Toml.keyPath?, hskip, h.keyPart? hafter]
  simp only [Option.bind_eq_bind, Option.bind_some]

/-! ## values -/

/-- `Written cs v`: on a line of its own after a key, `cs` reads as the scalar `v`. -/
structure Written (cs : List Char) (v : Item) : Prop where
  /-- It begins like a scalar. -/
  head : ∃ c tail, cs = c :: tail ∧ isBlank c = false ∧ c ≠ '[' ∧ c ≠ '\x7b'
  read : ∀ rest, scalar? (cs ++ '\n' :: rest) = some (v, '\n' :: rest)

/-- A value is read up to the end of its line. -/
theorem Written.value? {cs : List Char} {v : Item} (h : Written cs v) (fuel room : Nat)
    (rest : List Char) :
    value? (fuel + 1) room (skipBlanks (' ' :: (cs ++ '\n' :: rest))) =
      some (v, '\n' :: rest) := by
  have hread := h.read rest
  obtain ⟨c, tail, rfl, hblank, hbracket, hbrace⟩ := h.head
  have hskip : skipBlanks (' ' :: (c :: tail ++ '\n' :: rest)) = c :: (tail ++ '\n' :: rest) :=
    skipBlanks_of_not_blank hblank _
  rw [hskip, Toml.value?]
  · exact hread
  all_goals simp [hbracket, hbrace]

/-! ## lines -/

/-- The line with the header of a section. -/
def header (name : String) : List Char := '[' :: (name.toList ++ [']', '\n'])

namespace Progress

/-- `Line p cs q`: with `p` read so far, `cs` is a line that leads to `q`. -/
structure Line (p : Progress) (cs : List Char) (q : Progress) : Prop where
  ne_nil : cs ≠ []
  read : ∀ rest, p.line? (cs ++ rest) = some (q, rest)

theorem line_empty (p : Progress) : Line p ['\n'] p where
  ne_nil := List.cons_ne_nil _ _
  read _ := rfl

/-- A header begins a section that has not been there. -/
theorem line_header (h : Bare key) {p : Progress} {root : Table}
    (hroot : p.root.head [] key = some root) :
    Line p (header key) ⟨root, [key]⟩ where
  ne_nil := List.cons_ne_nil _ _
  read rest := by
    unfold header
    have hkey : keyPath? maxKeyParts (key.toList ++ ']' :: '\n' :: rest) =
        some (([], key), ']' :: '\n' :: rest) :=
      h.keyPath? (by simp; decide) (by simp [skipBlanks, isBlank]) 78
    have hheader : p.header? (key.toList ++ ']' :: '\n' :: rest) =
        some (⟨root, [key]⟩, rest) := by
      simp [header?, hkey, expect?, lineEnd?, skipBlanks, isBlank, skipComment, lineBreak?,
        hroot]
    obtain ⟨c, tail, hcons, hc⟩ := h.eq_cons
    have hbracket : c ≠ '[' := ne_of_isBare hc (by decide)
    rw [hcons] at hheader ⊢
    simp only [List.cons_append, List.append_assoc, List.nil_append] at hheader ⊢
    rw [line?, skipBlanks_of_not_blank (by decide)]
    split
    · next heq => exact absurd (List.cons.inj (List.cons.inj heq).2).1 hbracket
    · next heq =>
        obtain ⟨-, rfl⟩ := List.cons.inj heq
        exact hheader
    · next hno => exact absurd rfl (hno _)

/-- A line that gives a key its value. -/
theorem line_pair (h : Bare key) {cs : List Char} {v : Item} (hv : Written cs v)
    {p q : Progress} (hput : p.put [] key v = some q) :
    Line p (key.toList ++ ' ' :: '=' :: ' ' :: (cs ++ ['\n'])) q where
  ne_nil := by simp
  read rest := by
    have hkey : keyPath? maxKeyParts (key.toList ++ ' ' :: '=' :: ' ' :: (cs ++ '\n' :: rest)) =
        some (([], key), '=' :: ' ' :: (cs ++ '\n' :: rest)) :=
      h.keyPath? (by simp; decide) (by simp [skipBlanks, isBlank]) 78
    have hvalue := hv.value? (2 * (' ' :: (cs ++ '\n' :: rest)).length + 1) maxNesting rest
    have hpair : p.pair? (key.toList ++ ' ' :: '=' :: ' ' :: (cs ++ '\n' :: rest)) =
        some (q, rest) := by
      simp only [pair?, hkey, expect?, hvalue, Option.bind_eq_bind, Option.bind_some, if_true]
      simp [lineEnd?, skipBlanks, isBlank, skipComment, lineBreak?, hput]
    obtain ⟨c, tail, hcons, hc⟩ := h.eq_cons
    have hbracket : c ≠ '[' := ne_of_isBare hc (by decide)
    have hskip := skipBlanks_of_not_blank (not_isBlank_of_isBare hc)
      (tail ++ ' ' :: '=' :: ' ' :: (cs ++ '\n' :: rest))
    have hend : lineEnd? (c :: (tail ++ ' ' :: '=' :: ' ' :: (cs ++ '\n' :: rest))) = none := by
      have hcomment : c ≠ '#' := ne_of_isBare hc (by decide)
      have hfeed : c ≠ '\n' := ne_of_isBare hc (by decide)
      have hreturn : c ≠ '\r' := ne_of_isBare hc (by decide)
      simp [lineEnd?, hskip, skipComment, hcomment, lineBreak?, hfeed, hreturn]
    rw [hcons] at hpair ⊢
    simp only [List.cons_append, List.append_assoc, List.nil_append] at hpair ⊢
    rw [line?, hskip]
    split
    · next heq => exact absurd (List.cons.inj heq).1 hbracket
    · next heq => exact absurd (List.cons.inj heq).1 hbracket
    · rw [hend]
      exact hpair

end Progress

/-! ## tables -/

namespace Table

variable {o : Origin} {es : List (String × Item)} {name : String}

theorem entries_find?_of_not_mem (h : name ∉ es.map Prod.fst) :
    es.find? (·.1 == name) = none := by
  refine List.find?_eq_none.mpr fun e he heq => h ?_
  exact List.mem_map.mpr ⟨e, he, by simpa using heq⟩

theorem find?_of_not_mem (h : name ∉ es.map Prod.fst) : (mk o es).find? name = none := by
  simp [find?, entries, entries_find?_of_not_mem h]

theorem find?_last (h : name ∉ es.map Prod.fst) (v : Item) :
    (mk o (es ++ [(name, v)])).find? name = some v := by
  simp [find?, entries, List.find?_append, entries_find?_of_not_mem h]

/-- A new key goes to the end. -/
theorem set_of_not_mem (h : name ∉ es.map Prod.fst) (v : Item) :
    (mk o es).set name v = mk o (es ++ [(name, v)]) := by
  simp [set, find?_of_not_mem h, origin, entries]

/-- The latest key stays where it is. -/
theorem set_last (h : name ∉ es.map Prod.fst) (v w : Item) :
    (mk o (es ++ [(name, v)])).set name w = mk o (es ++ [(name, w)]) := by
  have hes : (es.map fun e => if e.1 = name then (e.1, w) else (e.1, e.2)) = es := by
    refine (List.map_congr_left fun e he => ?_).trans (List.map_id es)
    have hne : e.1 ≠ name := fun heq => h (List.mem_map.mpr ⟨e, he, heq⟩)
    simp [hne]
  simp [set, find?_last h, origin, entries, hes]

theorem head_of_not_mem (h : name ∉ es.map Prod.fst) :
    (mk o es).head [] name = some (mk o (es ++ [(name, .table (empty .headed))])) := by
  simp [head, update, find?_of_not_mem h, set_of_not_mem h]

theorem put_of_not_mem (ho : o ≠ .dotted) (h : name ∉ es.map Prod.fst) (v : Item) :
    (mk o es).put [] name v = some (mk o (es ++ [(name, v)])) := by
  simp [put, update, find?_of_not_mem h, set_of_not_mem h, origin, ho]

end Table

namespace Progress

/-- What has been read when the latest table is a section, after some others. -/
def within (before : List (String × Item)) (name : String) (es : List (String × Item)) :
    Progress :=
  ⟨.mk .headed (before ++ [(name, .table (.mk .headed es))]), [name]⟩

/-- **A new key is added to the latest section.** -/
theorem put_within {before es : List (String × Item)} {name key : String}
    (hname : name ∉ before.map Prod.fst) (hkey : key ∉ es.map Prod.fst) (v : Item) :
    (within before name es).put [] key v = some (within before name (es ++ [(key, v)])) := by
  have hadd : (Table.mk .headed es).put [] key v = some (.mk .headed (es ++ [(key, v)])) :=
    Table.put_of_not_mem (by decide) hkey v
  simp [put, within, Table.update, Table.find?_last hname, Table.set_last hname, Table.origin,
    hadd]

/-- **A header begins a new section.** -/
theorem line_section {es : List (String × Item)} (hkey : Bare key)
    (hnew : key ∉ es.map Prod.fst) (here : List String) :
    Line ⟨.mk .headed es, here⟩ (header key) (within es key []) :=
  line_header hkey (Table.head_of_not_mem hnew)

/-! ## documents -/

/-- `Reads p cs q`: with `p` read so far, the lines of `cs` lead to `q`. -/
def Reads (p : Progress) (cs : List Char) (q : Progress) : Prop :=
  ∀ fuel, cs.length ≤ fuel → lines? fuel p cs = some q

theorem Reads.nil (p : Progress) : Reads p [] p := by
  intro fuel _
  cases fuel <;> rfl

/-- Lines are read one after the other. -/
theorem Reads.cons {p q r : Progress} {line cs : List Char} (hline : Line p line q)
    (h : Reads q cs r) : Reads p (line ++ cs) r := by
  intro fuel hfuel
  obtain ⟨c, tail, rfl⟩ := List.exists_cons_of_ne_nil hline.ne_nil
  have hread := hline.read cs
  rw [List.cons_append] at hread hfuel ⊢
  cases fuel with
  | zero => simp at hfuel
  | succ fuel =>
      rw [lines?, hread]
      refine h fuel ?_
      simp at hfuel
      omega

theorem Reads.of_line {p q : Progress} {line : List Char} (h : Line p line q) :
    Reads p line q := by
  rw [← List.append_nil line]
  exact .cons h (.nil q)

end Progress

/-- A text is read as a document. -/
theorem parse_of_reads {cs : List Char} {q : Progress} (hmark : cs.head? ≠ some '\ufeff')
    (h : Progress.Reads {} cs q) : parse (String.ofList cs) = some q.root := by
  have hdrop : dropMark cs = cs := by
    unfold dropMark
    split
    · simp at hmark
    · rfl
  simp [parse, String.toList_ofList, hdrop, h cs.length (Nat.le_refl _)]

end SlotWatch.Toml
