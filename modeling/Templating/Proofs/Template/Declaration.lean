import Templating.Proofs.Cutting
import Templating.Template.Declaration

/-!
# What declares a layout

`Declares` is the grammar of layout markers: at the very start of a source an opener, blanks, an
ASCII identifier, blanks and a closer, then any text. `Declaration.scan` finds a name just if the
source declares one, no marker just if the source does not start with an opener, and else reports
what stands in place of the name (`scan_iff`).
-/

namespace Templating.Template.Declaration

open Text (AllBlank IsTrimmed)

/-! ## Identifiers -/

def IsIdentifierStart (c : Char) : Prop :=
  'A' ≤ c ∧ c ≤ 'Z' ∨ 'a' ≤ c ∧ c ≤ 'z' ∨ c = '_'

def IsIdentifierChar (c : Char) : Prop := IsIdentifierStart c ∨ '0' ≤ c ∧ c ≤ '9'

/-- An ASCII letter or underscore, then ASCII letters, digits and underscores. -/
def IsIdentifier (cs : List Char) : Prop :=
  ∃ first rest, cs = first :: rest ∧ IsIdentifierStart first ∧ ∀ c ∈ rest, IsIdentifierChar c

theorem isAlpha_iff {c : Char} :
    c.isAlpha = true ↔ 'A' ≤ c ∧ c ≤ 'Z' ∨ 'a' ≤ c ∧ c ≤ 'z' := by
  have hupper : c.isUpper = true ↔ 'A' ≤ c ∧ c ≤ 'Z' := decide_eq_true_iff
  have hlower : c.isLower = true ↔ 'a' ≤ c ∧ c ≤ 'z' :=
    Bool.and_eq_true_iff.trans (and_congr decide_eq_true_iff decide_eq_true_iff)
  exact Bool.or_eq_true_iff.trans (or_congr hupper hlower)

theorem isNameStart_iff {c : Char} : isNameStart c = true ↔ IsIdentifierStart c := by
  rw [isNameStart, Bool.or_eq_true, isAlpha_iff, beq_iff_eq]
  exact or_assoc

theorem isNameChar_iff {c : Char} : isNameChar c = true ↔ IsIdentifierChar c := by
  have hdigit : c.isDigit = true ↔ '0' ≤ c ∧ c ≤ '9' :=
    Bool.and_eq_true_iff.trans (and_congr decide_eq_true_iff decide_eq_true_iff)
  have halphanum : c.isAlphanum = true ↔ c.isAlpha = true ∨ c.isDigit = true :=
    Bool.or_eq_true_iff
  rw [IsIdentifierChar, ← isNameStart_iff, isNameStart, isNameChar, Bool.or_eq_true,
    Bool.or_eq_true, halphanum, hdigit]
  exact or_right_comm

theorem isName_iff {cs : List Char} : isName cs = true ↔ IsIdentifier cs := by
  cases cs with
  | nil => simp [isName, IsIdentifier]
  | cons first rest =>
    rw [isName, Bool.and_eq_true, isNameStart_iff, List.all_eq_true]
    simp only [isNameChar_iff]
    constructor
    · rintro ⟨hfirst, hrest⟩
      exact ⟨first, rest, rfl, hfirst, hrest⟩
    · rintro ⟨_, _, heq, hfirst, hrest⟩
      cases heq
      exact ⟨hfirst, hrest⟩

/-- Where the characters of identifiers stand among all characters. -/
theorem IsIdentifierChar.toNat_mem {c : Char} (h : IsIdentifierChar c) :
    48 ≤ c.toNat ∧ c.toNat ≤ 57 ∨ 65 ≤ c.toNat ∧ c.toNat ≤ 90 ∨ c.toNat = 95 ∨
      97 ≤ c.toNat ∧ c.toNat ≤ 122 := by
  rcases h with (⟨hlow, hhigh⟩ | ⟨hlow, hhigh⟩ | rfl) | ⟨hlow, hhigh⟩
  · exact .inr (.inl ⟨hlow, hhigh⟩)
  · exact .inr (.inr (.inr ⟨hlow, hhigh⟩))
  · exact .inr (.inr (.inl rfl))
  · exact .inl ⟨hlow, hhigh⟩

theorem IsIdentifierChar.not_isBlank {c : Char} (h : IsIdentifierChar c) :
    Text.isBlank c = false := by
  have hrange := h.toNat_mem
  simp only [Text.isBlank, Bool.or_eq_false_iff, Bool.and_eq_false_iff, decide_eq_false_iff_not,
    beq_eq_false_iff_ne]
  omega

theorem IsIdentifier.mem {cs : List Char} (h : IsIdentifier cs) {c : Char} (hc : c ∈ cs) :
    IsIdentifierChar c := by
  obtain ⟨first, rest, rfl, hfirst, hrest⟩ := h
  rcases List.mem_cons.1 hc with rfl | hc
  · exact .inl hfirst
  · exact hrest c hc

/-! ## The grammar -/

/-- The source starts with a marker that names a layout, and `rest` is the text behind it. -/
def Declares (source name : String) (rest : List Char) : Prop :=
  ∃ left right, source.toList = opener ++ left ++ name.toList ++ right ++ closer ++ rest ∧
    AllBlank left ∧ AllBlank right ∧ IsIdentifier name.toList

/-- `line` is the first line of a text. -/
def IsFirstLine (cs line : List Char) : Prop :=
  '\n' ∉ line ∧ (cs = line ∨ ∃ more, cs = line ++ '\n' :: more)

theorem isFirstLine_iff {cs line : List Char} : IsFirstLine cs line ↔ firstLine cs = line := by
  constructor
  · rintro ⟨hline, hcs⟩
    have hall : ∀ c ∈ line, (c != '\n') = true := fun c hc =>
      bne_iff_ne.2 fun heq => hline (heq ▸ hc)
    rcases hcs with rfl | ⟨more, rfl⟩
    · exact List.takeWhile_eq_self_iff.2 hall
    · rw [firstLine, List.takeWhile_append_of_pos hall, List.takeWhile_cons_of_neg (by decide),
        List.append_nil]
  · rintro rfl
    refine ⟨fun hmem => ?_, ?_⟩
    · have hne := List.mem_takeWhile_imp hmem
      exact absurd hne (by decide)
    · have hsplit := List.takeWhile_append_dropWhile (p := (· != '\n')) (l := cs)
      cases hrest : cs.dropWhile (· != '\n') with
      | nil =>
        rw [hrest, List.append_nil] at hsplit
        exact .inl hsplit.symm
      | cons c more =>
        have hhead := List.head?_dropWhile_not (· != '\n') cs
        rw [hrest] at hhead hsplit
        obtain rfl : c = '\n' := by simpa using hhead
        exact .inr ⟨more, hsplit.symm⟩

/-- Between the opener and the closer of a marker stand blanks and characters of identifiers. -/
theorem not_mem_inside {c : Char} (hblank : Text.isBlank c = false) (hchar : isNameChar c = false)
    {left name right : List Char} (hleft : AllBlank left) (hright : AllBlank right)
    (hname : IsIdentifier name) : c ∉ left ++ name ++ right := by
  intro hmem
  rcases List.mem_append.1 hmem with hmem | hmem
  · rcases List.mem_append.1 hmem with hmem | hmem
    · exact Bool.false_ne_true (hblank.symm.trans (hleft c hmem))
    · exact Bool.false_ne_true (hchar.symm.trans (isNameChar_iff.2 (hname.mem hmem)))
  · exact Bool.false_ne_true (hblank.symm.trans (hright c hmem))

theorem IsIdentifier.isTrimmed {name : List Char} (h : IsIdentifier name) {left right : List Char}
    (hleft : AllBlank left) (hright : AllBlank right) : IsTrimmed (left ++ name ++ right) name :=
  ⟨⟨left, right, rfl, hleft, hright⟩,
    fun _ hc => (h.mem (List.mem_of_head? hc)).not_isBlank,
    fun _ hc => (h.mem (List.mem_of_getLast? hc)).not_isBlank⟩

/-! ## The scan -/

/-- A marker is opened, and closed by the first closer behind. -/
theorem Declares.cut {source name : String} {rest : List Char} (h : Declares source name rest) :
    ∃ inside, Text.dropMark opener source.toList = some (inside ++ closer ++ rest) ∧
      Text.breakOn closer (inside ++ closer ++ rest) = some (inside, rest) ∧
      IsTrimmed inside name.toList := by
  obtain ⟨left, right, hsource, hleft, hright, hname⟩ := h
  refine ⟨left ++ name.toList ++ right, ?_, ?_, hname.isTrimmed hleft hright⟩
  · rw [Text.dropMark_eq_some, hsource]
    simp only [List.append_assoc]
  · exact Text.breakOn_of_not_mem (not_mem_inside (by decide) (by decide) hleft hright hname) rest

/-- A source declares one name at most, and the text behind its marker is determined. -/
theorem Declares.unique {source name other : String} {rest rest' : List Char}
    (h : Declares source name rest) (h' : Declares source other rest') :
    name = other ∧ rest = rest' := by
  obtain ⟨inside, hopened, hclosed, htrimmed⟩ := h.cut
  obtain ⟨inside', hopened', hclosed', htrimmed'⟩ := h'.cut
  rw [Option.some.inj (hopened.symm.trans hopened')] at hclosed
  obtain ⟨rfl, rfl⟩ := Prod.mk.inj (Option.some.inj (hclosed.symm.trans hclosed'))
  exact ⟨String.toList_inj.1 (htrimmed.trimChars_eq.symm.trans htrimmed'.trimChars_eq), rfl⟩

theorem scan_of_declares {source name : String} {rest : List Char} (h : Declares source name rest) :
    scan source = .named name := by
  obtain ⟨inside, hopened, hclosed, htrimmed⟩ := h.cut
  obtain ⟨-, -, -, -, -, hname⟩ := h
  rw [scan, hopened]
  dsimp only
  rw [hclosed]
  dsimp only
  rw [htrimmed.trimChars_eq, if_pos (isName_iff.2 hname), String.ofList_toList]

theorem scan_of_not_opened {source : String} (h : ∀ rest, source.toList ≠ opener ++ rest) :
    scan source = .absent := by
  rw [scan, Text.dropMark_eq_none.2 h]

/-- What is reported of a marker that names no layout: the text up to the first closer, or the first
line if there is none, trimmed. A carriage return at the end of the line is a blank. -/
def Reports (rest text : List Char) : Prop :=
  (∃ inside after, rest = inside ++ closer ++ after ∧
      (∀ left right, rest = left ++ closer ++ right → inside.length ≤ left.length) ∧
      IsTrimmed inside text) ∨
    (∀ left right, rest ≠ left ++ closer ++ right) ∧
      ∃ line, IsFirstLine rest line ∧ IsTrimmed line text

theorem reports_of_closed {rest inside after : List Char}
    (h : Text.breakOn closer rest = some (inside, after)) {text : List Char} :
    Reports rest text ↔ Text.trimChars inside = text := by
  obtain ⟨hrest, hfirst⟩ := Text.breakOn_eq_some_iff.1 h
  rw [← Text.isTrimmed_iff]
  constructor
  · rintro (⟨inside', after', hrest', hfirst', htrimmed⟩ | ⟨hunclosed, -⟩)
    · cases h.symm.trans (Text.breakOn_eq_some_iff.2 ⟨hrest', hfirst'⟩)
      exact htrimmed
    · exact absurd hrest (hunclosed inside after)
  · exact fun htrimmed => .inl ⟨inside, after, hrest, hfirst, htrimmed⟩

theorem reports_of_unclosed {rest : List Char} (h : Text.breakOn closer rest = none)
    {text : List Char} : Reports rest text ↔ Text.trimChars (firstLine rest) = text := by
  have hunclosed := Text.breakOn_eq_none_iff.1 h
  rw [← Text.isTrimmed_iff]
  constructor
  · rintro (⟨inside, after, hrest, -⟩ | ⟨-, line, hline, htrimmed⟩)
    · exact absurd hrest (hunclosed inside after)
    · rwa [isFirstLine_iff.1 hline]
  · exact fun htrimmed => .inr ⟨hunclosed, firstLine rest, isFirstLine_iff.2 rfl, htrimmed⟩

/-- A marker names a layout or is reported. -/
theorem scan_of_opened {source : String} {rest : List Char}
    (h : source.toList = opener ++ rest) :
    (∃ name after, scan source = .named name ∧ Declares source name after) ∨
      ∃ text, scan source = .malformed text ∧ ∀ other, Reports rest other ↔ text.toList = other := by
  have hopened : Text.dropMark opener source.toList = some rest := Text.dropMark_eq_some.2 h
  cases hclosed : Text.breakOn closer rest with
  | none =>
    refine .inr ⟨String.ofList (Text.trimChars (firstLine rest)), ?_, fun other => ?_⟩
    · rw [scan, hopened]
      dsimp only
      rw [hclosed]
    · rw [String.toList_ofList]
      exact reports_of_unclosed hclosed
  | some parts =>
    obtain ⟨inside, after⟩ := parts
    have hscan : scan source =
        if isName (Text.trimChars inside) then .named (String.ofList (Text.trimChars inside))
        else .malformed (String.ofList (Text.trimChars inside)) := by
      rw [scan, hopened]
      dsimp only
      rw [hclosed]
    by_cases hname : isName (Text.trimChars inside) = true
    · obtain ⟨⟨left, right, hinside, hleft, hright⟩, -⟩ := Text.isTrimmed_trimChars inside
      have hparts : inside ++ closer ++ after =
          left ++ Text.trimChars inside ++ right ++ closer ++ after := by rw [← hinside]
      rw [if_pos hname] at hscan
      refine .inl ⟨_, after, hscan, left, right, ?_, hleft, hright, ?_⟩
      · rw [h, Text.append_of_breakOn hclosed, hparts, String.toList_ofList]
        simp only [List.append_assoc]
      · rw [String.toList_ofList]
        exact isName_iff.1 hname
    · rw [if_neg hname] at hscan
      refine .inr ⟨_, hscan, fun other => ?_⟩
      rw [String.toList_ofList]
      exact reports_of_closed hclosed

theorem opened_or_scan_eq_absent (source : String) :
    (∃ rest, source.toList = opener ++ rest) ∨ scan source = .absent := by
  by_cases h : ∃ rest, source.toList = opener ++ rest
  · exact .inl h
  · exact .inr (scan_of_not_opened fun rest hrest => h ⟨rest, hrest⟩)

theorem declares_of_scan {source name : String} (h : scan source = .named name) :
    ∃ rest, Declares source name rest := by
  rcases opened_or_scan_eq_absent source with ⟨rest, hrest⟩ | habsent
  · rcases scan_of_opened hrest with ⟨name', after, hscan, hdeclares⟩ | ⟨text, hscan, -⟩
    · cases h.symm.trans hscan
      exact ⟨after, hdeclares⟩
    · cases h.symm.trans hscan
  · cases h.symm.trans habsent

/-- **The scan accepts exactly the grammar.** It finds a name just if the source declares it, which
it does for one name at most; no marker just if the source does not start with an opener; and
otherwise the text of a marker that names no layout. -/
theorem scan_iff (source : String) :
    (∀ name, scan source = .named name ↔ ∃ rest, Declares source name rest) ∧
    (∀ name other rest rest', Declares source name rest → Declares source other rest' →
      name = other) ∧
    (scan source = .absent ↔ ∀ rest, source.toList ≠ opener ++ rest) ∧
    ∀ text, scan source = .malformed text ↔
      (¬∃ name rest, Declares source name rest) ∧
        ∃ rest, source.toList = opener ++ rest ∧ Reports rest text.toList := by
  refine ⟨fun name => ⟨declares_of_scan, ?_⟩, fun _ _ _ _ h h' => (h.unique h').1,
    ⟨?_, scan_of_not_opened⟩, fun text => ⟨?_, ?_⟩⟩
  · rintro ⟨rest, hdeclares⟩
    exact scan_of_declares hdeclares
  · intro habsent rest hrest
    rcases scan_of_opened hrest with ⟨name, after, hscan, -⟩ | ⟨text, hscan, -⟩ <;>
      cases habsent.symm.trans hscan
  · intro hmalformed
    refine ⟨?_, ?_⟩
    · rintro ⟨name, rest, hdeclares⟩
      cases hmalformed.symm.trans (scan_of_declares hdeclares)
    · rcases opened_or_scan_eq_absent source with ⟨rest, hrest⟩ | habsent
      · rcases scan_of_opened hrest with ⟨name, after, hscan, -⟩ | ⟨text', hscan, hreports⟩
        · cases hmalformed.symm.trans hscan
        · cases hmalformed.symm.trans hscan
          exact ⟨rest, hrest, (hreports _).2 rfl⟩
      · cases hmalformed.symm.trans habsent
  · rintro ⟨hnone, rest, hrest, htext⟩
    rcases scan_of_opened hrest with ⟨name, after, -, hdeclares⟩ | ⟨text', hscan, hreports⟩
    · exact absurd ⟨name, after, hdeclares⟩ hnone
    · rw [hscan, String.toList_inj.1 ((hreports _).1 htext)]

/-- A no-break space and a line break around the name, further closers behind it, and a marker whose
content is cut at its first closer. -/
theorem scan_iff_stretched :
    Declares "\x7b#<\u00a0main_2\n#\x7d#\x7d" "main_2" ['#', '\x7d'] ∧
      scan "\x7b#<\u00a0main_2\n#\x7d#\x7d" = .named "main_2" ∧
      scan "\x7b#< a#b #\x7d #\x7d" = .malformed "a#b" ∧
      ¬∃ name rest, Declares "\x7b#< a#b #\x7d #\x7d" name rest := by
  have hleft : AllBlank ['\u00a0'] := fun c hc => List.mem_singleton.1 hc ▸ by decide
  have hright : AllBlank ['\n'] := fun c hc => List.mem_singleton.1 hc ▸ by decide
  have hdeclares : Declares "\x7b#<\u00a0main_2\n#\x7d#\x7d" "main_2" ['#', '\x7d'] :=
    ⟨_, _, rfl, hleft, hright, isName_iff.1 (by decide)⟩
  exact ⟨hdeclares, ((scan_iff _).1 "main_2").2 ⟨_, hdeclares⟩, rfl,
    (((scan_iff "\x7b#< a#b #\x7d #\x7d").2.2.2 "a#b").1 rfl).1⟩

end Templating.Template.Declaration
