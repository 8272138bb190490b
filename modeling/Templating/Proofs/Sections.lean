import Mathlib.Data.List.DropRight
import Templating.Proofs.Composition
import Templating.Proofs.Table

/-!
# What a section holds

Definitions of one section replace, append or prepend, in any order and with those of other
sections between them. What the section then holds is told by the definitions since the last
replacement (`contentOf`): what these prepended, the last in front, then the replacement, then what
they appended. Each definition changes this as it changes the section (`contentOf_concat`), and
definitions without a replacement among them add to both ends at once (`contentOf_append`), so it
does not matter how they are interleaved.
-/

namespace Templating

namespace Definition

/-- The contents of the definitions made in one mode, in order. -/
def contents (mode : SectionMode) (made : List Definition) : List String :=
  (made.filter fun d => d.mode = mode).map Definition.content

/-- The definitions since the last that replaced. -/
def sinceReplaced (made : List Definition) : List Definition :=
  made.rtakeWhile fun d => d.mode ≠ .replace

/-- The content of the last replacement, empty if there was none. -/
def lastReplaced (made : List Definition) : String :=
  ((made.rdropWhile fun d => d.mode ≠ .replace).getLast?.map Definition.content).getD ""

/-- What a section holds after its definitions. -/
def contentOf (made : List Definition) : String :=
  String.join (contents .prepend (sinceReplaced made)).reverse ++ lastReplaced made ++
    String.join (contents .append (sinceReplaced made))

theorem contents_append (mode : SectionMode) (made more : List Definition) :
    contents mode (made ++ more) = contents mode made ++ contents mode more := by
  rw [contents, List.filter_append, List.map_append, contents, contents]

theorem contents_singleton (mode : SectionMode) (d : Definition) :
    contents mode [d] = if d.mode = mode then [d.content] else [] := by
  by_cases h : d.mode = mode <;> simp [contents, h]

/-- One definition more joins its content to what the section holds. -/
theorem contentOf_concat (made : List Definition) (d : Definition) :
    contentOf (made ++ [d]) = d.mode.join d.content (contentOf made) := by
  unfold contentOf sinceReplaced lastReplaced
  cases hmode : d.mode with
  | replace =>
    rw [List.rtakeWhile_concat_neg _ _ _ (by simp [hmode]),
      List.rdropWhile_concat_neg _ _ _ (by simp [hmode]), List.getLast?_concat]
    simp [contents, SectionMode.join]
  | append =>
    rw [List.rtakeWhile_concat_pos _ _ _ (by simp [hmode]),
      List.rdropWhile_concat_pos _ _ _ (by simp [hmode])]
    simp [contents_append, contents_singleton, hmode, SectionMode.join, String.append_assoc]
  | prepend =>
    rw [List.rtakeWhile_concat_pos _ _ _ (by simp [hmode]),
      List.rdropWhile_concat_pos _ _ _ (by simp [hmode])]
    simp [contents_append, contents_singleton, hmode, SectionMode.join, String.append_assoc]

/-- Definitions that do not replace add to both ends of what the section holds. -/
theorem contentOf_append (made : List Definition) {more : List Definition}
    (h : ∀ d ∈ more, d.mode ≠ .replace) :
    contentOf (made ++ more) =
      String.join (contents .prepend more).reverse ++ contentOf made ++
        String.join (contents .append more) := by
  induction more using List.reverseRecOn with
  | nil => simp [contents]
  | append_singleton more d ih =>
    have hmore := ih fun d' hmem => h d' (List.mem_append_left _ hmem)
    rw [← List.append_assoc, contentOf_concat, hmore]
    cases hmode : d.mode with
    | replace => exact absurd hmode (h d (List.mem_append_right _ List.mem_cons_self))
    | append =>
      simp [contents_append, contents_singleton, hmode, SectionMode.join, String.append_assoc]
    | prepend =>
      simp [contents_append, contents_singleton, hmode, SectionMode.join, String.append_assoc]

/-- The definitions of the section `name`. -/
def of (name : String) (made : List Definition) : List Definition :=
  made.filter fun d => d.name = name

theorem mem_of {name : String} {made : List Definition} {d : Definition} :
    d ∈ of name made ↔ d ∈ made ∧ d.name = name := by
  simp [of]

theorem of_append (name : String) (made more : List Definition) :
    of name (made ++ more) = of name made ++ of name more :=
  List.filter_append ..

theorem of_singleton (name : String) (d : Definition) :
    of name [d] = if d.name = name then [d] else [] := by
  by_cases h : d.name = name <;> simp [of, h]

theorem of_eq_nil {name : String} {made : List Definition} :
    of name made = [] ↔ ¬∃ d ∈ made, d.name = name := by
  simp [of]

theorem of_of (name : String) (made : List Definition) : of name (of name made) = of name made := by
  simp [of]

/-- The same definitions in each mode are, for one section, the same definitions in each mode. -/
theorem filter_mode_of (name : String) (mode : SectionMode) (made : List Definition) :
    ((of name made).filter fun d => d.mode = mode) =
      of name (made.filter fun d => d.mode = mode) := by
  simp only [of, List.filter_filter, Bool.and_comm]

end Definition

namespace Sections

open Definition (of contentOf)

/-! ## One definition -/

/-- A definition with a name changes the section of that name only. -/
theorem get?_defineAll_singleton (s : Sections) (d : Definition) {name : String}
    (hname : name ≠ "") :
    (s.defineAll [d]).get? name =
      if d.name = name then some (d.mode.join d.content ((s.get? name).getD "")) else s.get? name := by
  change ((s.define d.name d.content d.mode).toOption.getD s).get? name = _
  unfold define
  split
  · next hempty =>
    have hne : d.name ≠ name := fun heq => hname (heq.symm.trans hempty)
    rw [if_neg hne]
    rfl
  · change (s.put d.name _).get? name = _
    rw [Table.get?_put]
    by_cases heq : d.name = name
    · rw [if_pos heq.symm, if_pos heq, heq]
    · rw [if_neg (Ne.symm heq), if_neg heq]

/-- A definition without a name is refused. -/
theorem defineAll_singleton_nameless (s : Sections) {d : Definition} (h : d.name = "") :
    s.defineAll [d] = s := by
  change (s.define d.name d.content d.mode).toOption.getD s = s
  rw [define, if_pos h]
  rfl

/-! ## Any number of definitions -/

/-- A section holds what its own definitions have made. -/
theorem get?_defineAll (made : List Definition) {name : String} (hname : name ≠ "") :
    (defineAll .empty made).get? name =
      if of name made = [] then none else some (contentOf (of name made)) := by
  -- from the last definition back, as it is the one that changes the section last
  induction made using List.reverseRecOn with
  | nil => rfl
  | append_singleton made d ih =>
    rw [defineAll_append, get?_defineAll_singleton _ d hname, ih, Definition.of_append,
      Definition.of_singleton]
    by_cases hd : d.name = name
    · have hne : of name made ++ [d] ≠ [] := by simp
      rw [if_pos hd, if_pos hd, if_neg hne, Definition.contentOf_concat]
      by_cases hnil : of name made = []
      · rw [if_pos hnil, hnil]
        rfl
      · rw [if_neg hnil]
        rfl
    · rw [if_neg hd, if_neg hd, List.append_nil]

/-- Definitions without a name change nothing. -/
theorem defineAll_named (s : Sections) (made : List Definition) :
    s.defineAll (made.filter fun d => d.name ≠ "") = s.defineAll made := by
  induction made generalizing s with
  | nil => rfl
  | cons d made ih =>
    have hsplit : ∀ rest, s.defineAll (d :: rest) = (s.defineAll [d]).defineAll rest := fun rest =>
      defineAll_append s [d] rest
    by_cases hd : d.name = ""
    · rw [List.filter_cons_of_neg (by simp [hd]), ih, hsplit, defineAll_singleton_nameless s hd]
    · rw [List.filter_cons_of_pos (by simp [hd]), hsplit, ih, ← hsplit]

/-- Definitions that do not replace may be interleaved in any way. -/
theorem get?_defineAll_interleaved (made : List Definition) {more other : List Definition}
    (hmore : ∀ d ∈ more, d.mode ≠ .replace)
    (hsame : ∀ mode, (more.filter fun d => d.mode = mode) = other.filter fun d => d.mode = mode)
    {name : String} (hname : name ≠ "") :
    (defineAll .empty (made ++ more)).get? name =
      (defineAll .empty (made ++ other)).get? name := by
  have hother : ∀ d ∈ other, d.mode ≠ .replace := by
    intro d hd hmode
    have hmem : d ∈ other.filter fun d => d.mode = .replace := List.mem_filter.2 ⟨hd, by simp [hmode]⟩
    rw [← hsame] at hmem
    exact hmore d (List.mem_filter.1 hmem).1 hmode
  have hcontents : ∀ mode, Definition.contents mode (of name more) =
      Definition.contents mode (of name other) := by
    intro mode
    rw [Definition.contents, Definition.contents, Definition.filter_mode_of,
      Definition.filter_mode_of, hsame]
  -- a definition is found among those of its own mode
  have hmem : ∀ d, d ∈ more ↔ d ∈ other := by
    intro d
    have hfilter : (d ∈ more.filter fun d' => d'.mode = d.mode) ↔
        d ∈ other.filter fun d' => d'.mode = d.mode := by rw [hsame]
    simpa using hfilter
  have hnil : of name (made ++ more) = [] ↔ of name (made ++ other) = [] := by
    simp only [Definition.of_eq_nil, List.mem_append, hmem]
  have hcontent : contentOf (of name (made ++ more)) = contentOf (of name (made ++ other)) := by
    rw [Definition.of_append, Definition.of_append,
      Definition.contentOf_append _ fun d hd => hmore d (Definition.mem_of.1 hd).1,
      Definition.contentOf_append _ fun d hd => hother d (Definition.mem_of.1 hd).1,
      hcontents, hcontents]
  rw [get?_defineAll _ hname, get?_defineAll _ hname, hcontent]
  exact if_congr hnil rfl rfl

/-- **What sections hold.** After any definitions a section is defined just if one of them named
it, and holds what they prepended to it since its last replacement, the last in front, then what
this replacement put there, then what they appended since. Definitions of other sections do not
matter, nor do those without a name, which are refused; and definitions that do not replace may be
interleaved in any way as long as those of one mode keep their order. -/
theorem content_defineAll (made : List Definition) :
    (∀ name, name ≠ "" →
      ((defineAll .empty made).isDefined name = true ↔ ∃ d ∈ made, d.name = name) ∧
      (∀ required, (∃ d ∈ made, d.name = name) →
        (defineAll .empty made).content name required = .ok (some (contentOf (of name made)))) ∧
      ((¬∃ d ∈ made, d.name = name) →
        (defineAll .empty made).content name false = .ok none ∧
          (defineAll .empty made).content name true =
            .error (.validation "name" s!"section `{name}` has not been defined but is required")) ∧
      ∀ required, (defineAll .empty made).content name required =
        (defineAll .empty (of name made)).content name required) ∧
    (∀ (s : Sections) content mode, s.define "" content mode = .error nameless) ∧
    defineAll .empty (made.filter fun d => d.name ≠ "") = defineAll .empty made ∧
    ∀ more other : List Definition, (∀ d ∈ more, d.mode ≠ .replace) →
      (∀ mode, (more.filter fun d => d.mode = mode) = other.filter fun d => d.mode = mode) →
      ∀ name, name ≠ "" → ∀ required,
        (defineAll .empty (made ++ more)).content name required =
          (defineAll .empty (made ++ other)).content name required := by
  refine ⟨fun name hname => ?_, fun _ _ _ => rfl, defineAll_named _ made, ?_⟩
  · have hget := get?_defineAll made hname
    refine ⟨?_, fun required hmade => ?_, fun hnone => ?_, fun required => ?_⟩
    · rw [isDefined, Table.contains_eq, hget]
      by_cases hnil : of name made = []
      · simp [hnil, Definition.of_eq_nil.1 hnil]
      · simpa [hnil] using Definition.of_eq_nil.not_left.1 hnil
    · have hne : of name made ≠ [] := fun hnil => Definition.of_eq_nil.1 hnil hmade
      rw [content, if_neg hname, hget, if_neg hne]
    · have hnil : of name made = [] := Definition.of_eq_nil.2 hnone
      rw [content, content, if_neg hname, if_neg hname, hget, if_pos hnil]
      exact ⟨rfl, rfl⟩
    · rw [content, content, hget, get?_defineAll (of name made) hname, Definition.of_of]
  · intro more other hmore hsame name hname required
    rw [content, content, get?_defineAll_interleaved made hmore hsame hname]

/-- Definitions of two sections in all modes, one of them refused. -/
def scattered : List Definition :=
  [⟨"nav", "old", .append⟩, ⟨"nav", "n", .replace⟩, ⟨"aside", "a", .prepend⟩, ⟨"nav", "1", .append⟩,
    ⟨"", "lost", .replace⟩, ⟨"nav", "2", .prepend⟩, ⟨"nav", "3", .prepend⟩, ⟨"nav", "4", .append⟩]

theorem content_defineAll_scattered :
    "nav" ≠ "" ∧ (∃ d ∈ scattered, d.name = "nav") ∧
      (defineAll .empty scattered).content "nav" true = .ok (some "32n14") ∧
      (defineAll .empty (of "nav" scattered)).content "nav" true = .ok (some "32n14") ∧
      (defineAll .empty scattered).content "footer" false = .ok none := by
  have hnav : "nav" ≠ "" := by decide
  have hmade : ∃ d ∈ scattered, d.name = "nav" := ⟨_, List.mem_cons_self, rfl⟩
  have hnone : ¬∃ d ∈ scattered, d.name = "footer" := by
    rw [← Definition.of_eq_nil]
    rfl
  have hall := (content_defineAll scattered).1
  have hcontent : (defineAll .empty scattered).content "nav" true = .ok (some "32n14") :=
    (hall "nav" hnav).2.1 true hmade
  exact ⟨hnav, hmade, hcontent, ((hall "nav" hnav).2.2.2 true).symm.trans hcontent,
    ((hall "footer" (by decide)).2.2.1 hnone).1⟩

end Sections

end Templating
