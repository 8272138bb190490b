import Mathlib.Data.List.Induction
import Templating.Proofs.Bindings
import Templating.Proofs.ByteOrder

/-!
# Data from a model

The members of a model come in ascending order of their names, so names that differ in case alone
need not be neighbours. Bound one after the other they merge into one entry for each name
(`Merges`): it stands where the first of its spellings stood and carries the last of them with its
value (`ofModel_obj`). What is an object again then holds one spelling of each name, and converting
it changes no more than the order.
-/

namespace Templating

open Text (bytes sameIgnoringCase)

variable {α : Type}

/-! ## Rows from a list, in another order -/

namespace Sorted

theorem perm_put {key : String} {rows : List (String × α)} (h : key ∉ rows.map Prod.fst)
    (value : α) : (put key value rows).Perm ((key, value) :: rows) := by
  induction rows with
  | nil => exact .refl _
  | cons row rows ih =>
    obtain ⟨k, v⟩ := row
    simp only [List.map_cons, List.mem_cons, not_or] at h
    rw [put, if_neg h.1]
    split
    · exact .refl _
    · exact ((ih h.2).cons (k, v)).trans (.swap ..)

theorem perm_foldl_put {rows acc : List (String × α)} (hnodup : (rows.map Prod.fst).Nodup)
    (hacc : ∀ key ∈ rows.map Prod.fst, key ∉ acc.map Prod.fst) :
    (rows.foldl (fun acc (k, v) => put k v acc) acc).Perm (rows ++ acc) := by
  induction rows generalizing acc with
  | nil => exact .refl _
  | cons row rows ih =>
    obtain ⟨k, v⟩ := row
    rw [List.map_cons, List.nodup_cons] at hnodup
    have hfresh : k ∉ acc.map Prod.fst := hacc k List.mem_cons_self
    have hrest : ∀ key ∈ rows.map Prod.fst, key ∉ (put k v acc).map Prod.fst := by
      intro key hkey hmem
      rcases (mem_keys_put ..).1 hmem with rfl | hmem
      · exact hnodup.1 hkey
      · exact hacc key (List.mem_cons_of_mem _ hkey) hmem
    exact (ih hnodup.2 hrest).trans (((perm_put hfresh v).append_left rows).trans List.perm_middle)

/-- Rows with different keys are only put in order. -/
theorem perm_ofList {rows : List (String × α)} (h : (rows.map Prod.fst).Nodup) :
    (ofList rows).Perm rows := by
  have hperm : (ofList rows).Perm (rows ++ []) := perm_foldl_put h fun _ _ => List.not_mem_nil
  rwa [List.append_nil] at hperm

end Sorted

namespace Bindings

/-! ## The spellings of a name -/

/-- The spellings that a name has among some members. -/
def spellings (members : List (String × α)) (name : String) : List String :=
  (members.map Prod.fst).filter fun spelling => sameIgnoringCase spelling name

/-- Of the spellings of a name, the one whose bytes come before those of all others. -/
def IsFirstSpelling (members : List (String × α)) (name first : String) : Prop :=
  first ∈ spellings members name ∧
    ∀ other ∈ spellings members name, other ≠ first → bytes first < bytes other

/-- Of the spellings of a name, the one whose bytes come behind those of all others. -/
def IsLastSpelling (members : List (String × α)) (name last : String) : Prop :=
  last ∈ spellings members name ∧
    ∀ other ∈ spellings members name, other ≠ last → bytes other < bytes last

theorem mem_spellings {members : List (String × α)} {name spelling : String} :
    spelling ∈ spellings members name ↔
      (∃ m ∈ members, m.1 = spelling) ∧ sameIgnoringCase spelling name = true := by
  rw [spellings, List.mem_filter, List.mem_map]

/-- Members have all spellings of a name or none. -/
theorem spellings_congr {a b : String} (h : sameIgnoringCase a b = true)
    (members : List (String × α)) : spellings members a = spellings members b := by
  unfold spellings
  congr 1
  funext spelling
  rw [Text.sameIgnoringCase_comm, Text.sameIgnoringCase_congr h, Text.sameIgnoringCase_comm]

theorem mem_spellings_concat {members : List (String × α)} {m : String × α}
    {name spelling : String} :
    spelling ∈ spellings (members ++ [m]) name ↔
      spelling ∈ spellings members name ∨ spelling = m.1 ∧ sameIgnoringCase m.1 name = true := by
  simp only [mem_spellings, List.mem_append, List.mem_singleton]
  constructor
  · rintro ⟨⟨m', hmem | rfl, rfl⟩, hsame⟩
    · exact .inl ⟨⟨m', hmem, rfl⟩, hsame⟩
    · exact .inr ⟨rfl, hsame⟩
  · rintro (⟨⟨m', hmem, rfl⟩, hsame⟩ | ⟨rfl, hsame⟩)
    · exact ⟨⟨m', .inl hmem, rfl⟩, hsame⟩
    · exact ⟨⟨m, .inr rfl, rfl⟩, hsame⟩

/-- The first spelling of one name comes before that of another. -/
def Precedes (members : List (String × α)) (name other : String) : Prop :=
  ∃ first first', IsFirstSpelling members name first ∧ IsFirstSpelling members other first' ∧
    bytes first < bytes first'

namespace Precedes

variable {members : List (String × α)} {a b c : String}

theorem congr_left (hsame : sameIgnoringCase a b = true) (h : Precedes members a c) :
    Precedes members b c := by
  unfold Precedes IsFirstSpelling at h ⊢
  rwa [← spellings_congr hsame]

theorem congr_right (hsame : sameIgnoringCase a b = true) (h : Precedes members c a) :
    Precedes members c b := by
  unfold Precedes IsFirstSpelling at h ⊢
  rwa [← spellings_congr hsame]

end Precedes

theorem exists_isFirstSpelling {members : List (String × α)} (h : Sorted.Ascending members)
    {name spelling : String} (hmem : spelling ∈ spellings members name) :
    ∃ first, IsFirstSpelling members name first := by
  have hascending : (spellings members name).Pairwise (· < ·) := h.pairwise_keys.filter _
  cases hspellings : spellings members name with
  | nil =>
    rw [hspellings] at hmem
    cases hmem
  | cons first rest =>
    rw [hspellings, List.pairwise_cons] at hascending
    refine ⟨first, by rw [hspellings]; exact List.mem_cons_self, fun other hother hne => ?_⟩
    rw [hspellings] at hother
    rcases List.mem_cons.1 hother with rfl | hother
    · exact absurd rfl hne
    · exact Text.lt_iff_bytes_lt.1 (hascending.1 other hother)

/-! ## One member more -/

section Concat

variable {members : List (String × α)} {m : String × α} (hlast : ∀ m' ∈ members, m'.1 < m.1)
include hlast

/-- The first spelling stays the first when a greater name follows. -/
theorem IsFirstSpelling.concat {name first : String} (h : IsFirstSpelling members name first) :
    IsFirstSpelling (members ++ [m]) name first := by
  refine ⟨mem_spellings_concat.2 (.inl h.1), fun other hother hne => ?_⟩
  rcases mem_spellings_concat.1 hother with hother | ⟨rfl, -⟩
  · exact h.2 other hother hne
  · obtain ⟨⟨m', hmem, rfl⟩, -⟩ := mem_spellings.1 h.1
    exact Text.lt_iff_bytes_lt.1 (hlast m' hmem)

theorem Precedes.concat {a b : String} (h : Precedes members a b) :
    Precedes (members ++ [m]) a b := by
  obtain ⟨first, first', hfirst, hfirst', hlt⟩ := h
  exact ⟨first, first', hfirst.concat hlast, hfirst'.concat hlast, hlt⟩

/-- A greater name that follows is the last spelling of itself. -/
theorem isLastSpelling_concat : IsLastSpelling (members ++ [m]) m.1 m.1 := by
  refine ⟨mem_spellings_concat.2 (.inr ⟨rfl, Text.sameIgnoringCase_refl m.1⟩), ?_⟩
  intro other hother hne
  rcases mem_spellings_concat.1 hother with hother | ⟨rfl, -⟩
  · obtain ⟨⟨m', hmem, rfl⟩, -⟩ := mem_spellings.1 hother
    exact Text.lt_iff_bytes_lt.1 (hlast m' hmem)
  · exact absurd rfl hne

end Concat

/-- The last spelling stays the last when another name follows. -/
theorem IsLastSpelling.concat_of_differ {members : List (String × α)} {m : String × α}
    {name last : String} (hdiffers : sameIgnoringCase name m.1 = false)
    (h : IsLastSpelling members name last) : IsLastSpelling (members ++ [m]) name last := by
  refine ⟨mem_spellings_concat.2 (.inl h.1), fun other hother hne => ?_⟩
  rcases mem_spellings_concat.1 hother with hother | ⟨-, hsame⟩
  · exact h.2 other hother hne
  · rw [Text.sameIgnoringCase_comm, hdiffers] at hsame
    cases hsame

/-! ## Members merged -/

/-- That entries are members merged by their names. -/
structure Merges (members entries : List (String × α)) : Prop where
  /-- No name has two entries. -/
  distinct : entries.Pairwise fun e e' => sameIgnoringCase e.1 e'.1 = false
  /-- Each name has an entry. -/
  covers : ∀ m ∈ members, ∃ e ∈ entries, sameIgnoringCase m.1 e.1 = true
  /-- An entry is the member with the last spelling of its name. -/
  last : ∀ e ∈ entries, e ∈ members ∧ IsLastSpelling members e.1 e.1
  /-- Entries are in the order of the first spellings of their names. -/
  ordered : entries.Pairwise fun e e' => Precedes members e.1 e'.1

namespace Merges

theorem nil : Merges ([] : List (String × α)) [] :=
  ⟨.nil, nofun, nofun, .nil⟩

variable {members : List (String × α)} {b : Bindings α} (h : Merges members b.entries)
include h

/-- A name without an entry is not among the members. -/
theorem spellings_of_absent {name : String}
    (habsent : ∀ e ∈ b.entries, sameIgnoringCase e.1 name = false) :
    spellings members name = [] := by
  refine List.eq_nil_iff_forall_not_mem.2 fun spelling hmem => ?_
  obtain ⟨⟨m, hm, rfl⟩, hsame⟩ := mem_spellings.1 hmem
  obtain ⟨e, he, hentry⟩ := h.covers m hm
  have hdiffers := habsent e he
  rw [← Text.sameIgnoringCase_congr hentry, hsame] at hdiffers
  cases hdiffers

section Insert

variable {m : String × α} (hlast : ∀ m' ∈ members, m'.1 < m.1)
include hlast

/-- A further spelling takes the place of the entry that has its name. -/
theorem ordered_of_split {before after : List (String × α)} {e : String × α}
    (hsplit : b.entries = before ++ e :: after) (hsame : sameIgnoringCase e.1 m.1 = true) :
    (before ++ m :: after).Pairwise fun e e' => Precedes (members ++ [m]) e.1 e'.1 := by
  have hordered : b.entries.Pairwise fun e e' => Precedes (members ++ [m]) e.1 e'.1 :=
    h.ordered.imp (Precedes.concat hlast)
  rw [hsplit, List.pairwise_append, List.pairwise_cons] at hordered
  obtain ⟨hbefore, ⟨hafter, hrest⟩, hcross⟩ := hordered
  rw [List.pairwise_append, List.pairwise_cons]
  refine ⟨hbefore, ⟨fun e' he' => (hafter e' he').congr_left hsame, hrest⟩, ?_⟩
  intro e₁ he₁ e₂ he₂
  rcases List.mem_cons.1 he₂ with rfl | he₂
  · exact (hcross e₁ he₁ e List.mem_cons_self).congr_right hsame
  · exact hcross e₁ he₁ e₂ (List.mem_cons_of_mem _ he₂)

/-- A name that is new comes behind all others, as it is greater than all their spellings. -/
theorem ordered_of_absent (hmembers : Sorted.Ascending members)
    (habsent : ∀ e ∈ b.entries, sameIgnoringCase e.1 m.1 = false) :
    (b.entries ++ [m]).Pairwise fun e e' => Precedes (members ++ [m]) e.1 e'.1 := by
  have hnone := h.spellings_of_absent habsent
  have hfirst : IsFirstSpelling (members ++ [m]) m.1 m.1 := by
    refine ⟨mem_spellings_concat.2 (.inr ⟨rfl, Text.sameIgnoringCase_refl m.1⟩), ?_⟩
    intro other hother hne
    rw [mem_spellings_concat, hnone] at hother
    exact absurd (hother.resolve_left List.not_mem_nil).1 hne
  rw [List.pairwise_append]
  refine ⟨h.ordered.imp (Precedes.concat hlast), List.pairwise_singleton .., ?_⟩
  intro e he e' he'
  rw [List.mem_singleton.1 he']
  obtain ⟨hmem, hspelling, -⟩ := h.last e he
  obtain ⟨first, hfst⟩ := exists_isFirstSpelling hmembers hspelling
  obtain ⟨⟨m', hm', rfl⟩, -⟩ := mem_spellings.1 hfst.1
  exact ⟨_, m.1, hfst.concat hlast, hfirst, Text.lt_iff_bytes_lt.1 (hlast m' hm')⟩

/-- Binding one member more merges it into the entries. -/
theorem insert (hmembers : Sorted.Ascending members) :
    Merges (members ++ [m]) (b.insert m.1 m.2).entries := by
  have hdistinct : b.Distinct := h.distinct
  have hself : m ∈ (b.insert m.1 m.2).entries := hdistinct.mem_insert_iff.2 (.inl rfl)
  refine ⟨hdistinct.insert m.1 m.2, ?_, ?_, ?_⟩
  · intro m' hm'
    rcases List.mem_append.1 hm' with hm' | hm'
    · obtain ⟨e, he, hsame⟩ := h.covers m' hm'
      -- the entry of an earlier member stays unless the new one has its name
      cases hentry : sameIgnoringCase e.1 m.1 with
      | true => exact ⟨m, hself, (Text.sameIgnoringCase_congr hsame m.1).trans hentry⟩
      | false => exact ⟨e, hdistinct.mem_insert_iff.2 (.inr ⟨he, hentry⟩), hsame⟩
    · rw [List.mem_singleton.1 hm']
      exact ⟨m, hself, Text.sameIgnoringCase_refl m.1⟩
  · intro e he
    rcases hdistinct.mem_insert_iff.1 he with rfl | ⟨he, hdiffers⟩
    · exact ⟨List.mem_append_right _ List.mem_cons_self, isLastSpelling_concat hlast⟩
    · obtain ⟨hmem, hlastSpelling⟩ := h.last e he
      exact ⟨List.mem_append_left _ hmem, hlastSpelling.concat_of_differ hdiffers⟩
  · rcases b.split_or_absent m.1 with ⟨before, e, after, hsplit, hsame⟩ | habsent
    · rw [insert_of_split hdistinct hsplit hsame]
      exact h.ordered_of_split hlast hsplit hsame
    · rw [insert_of_absent habsent]
      exact h.ordered_of_absent hlast hmembers habsent

end Insert

end Merges

theorem merges_ofList {members : List (String × α)} (h : Sorted.Ascending members) :
    Merges members (ofList members).entries := by
  -- each member is greater than all before it, which `Merges.insert` asks for
  induction members using List.reverseRecOn with
  | nil => exact .nil
  | append_singleton members m ih =>
    obtain ⟨hmembers, -, hcross⟩ := List.pairwise_append.1 h
    rw [ofList, List.foldl_concat]
    exact (ih hmembers).insert (fun m' hm' => hcross m' hm' m List.mem_cons_self) hmembers

/-! ## Converting again -/

/-- Members of different names, whatever their order, are the entries as they stand. -/
theorem foldl_insert_of_distinct {members : List (String × α)} {b : Bindings α}
    (h : (b.entries ++ members).Pairwise fun e e' => sameIgnoringCase e.1 e'.1 = false) :
    members.foldl (fun b (name, value) => b.insert name value) b = ⟨b.entries ++ members⟩ := by
  induction members generalizing b with
  | nil => rw [List.append_nil]; rfl
  | cons m members ih =>
    obtain ⟨name, value⟩ := m
    have habsent : ∀ e ∈ b.entries, sameIgnoringCase e.1 name = false := fun e he =>
      (List.pairwise_append.1 h).2.2 e he (name, value) List.mem_cons_self
    have hentries := insert_of_absent habsent value
    have hsplit : b.entries ++ (name, value) :: members =
        (b.insert name value).entries ++ members := by
      rw [hentries, List.append_cons]
    rw [List.foldl_cons, ih (hsplit ▸ h), ← hsplit]

theorem entries_ofList_of_distinct {members : List (String × α)}
    (h : members.Pairwise fun e e' => sameIgnoringCase e.1 e'.1 = false) :
    (ofList members).entries = members := by
  rw [ofList, foldl_insert_of_distinct (by exact h)]
  rfl

/-- Data written as an object is read again with the same entries. -/
theorem Distinct.ofModel_toJson {b : Bindings Json} (h : b.Distinct) :
    ∃ again, ofModel b.toJson = .ok again ∧ again.entries.Perm b.entries := by
  have hperm : (Sorted.ofList b.entries).Perm b.entries := Sorted.perm_ofList h.nodup_names
  have hdistinct : (Sorted.ofList b.entries).Pairwise fun e e' =>
      sameIgnoringCase e.1 e'.1 = false :=
    h.perm hperm.symm fun hdiffers => (Text.sameIgnoringCase_comm ..).trans hdiffers
  refine ⟨ofList (Sorted.ofList b.entries), rfl, ?_⟩
  rwa [entries_ofList_of_distinct hdistinct]

/-! ## Models -/

/-- **A model becomes data.** An object gives one entry for each name, in the order of the first
spellings, with the last spelling and its value; written as an object and converted again, the
entries are the same up to their order. No model is data without entries, and any other value is
refused. -/
theorem ofModel_merges :
    (∀ members : List (String × Json), Sorted.Ascending members →
      ∃ b, ofModel (.obj members) = .ok b ∧ Merges members b.entries ∧
        ∃ again, ofModel b.toJson = .ok again ∧ again.entries.Perm b.entries) ∧
    ofModel .null = .ok ⟨[]⟩ ∧
    ∀ model : Json, model ≠ .null → (∀ members, model ≠ .obj members) →
      ofModel model =
        .error (.validation "model" s!"expected an object, found {kindName model}") := by
  refine ⟨fun members hmembers => ?_, rfl, fun model hnull hobj => ?_⟩
  · have hmerges := merges_ofList hmembers
    have hdistinct : (ofList members).Distinct := hmerges.distinct
    exact ⟨ofList members, rfl, hmerges, hdistinct.ofModel_toJson⟩
  · cases model with
    | null => exact absurd rfl hnull
    | obj members => exact absurd rfl (hobj members)
    | _ => rfl

/-- A model in which a name comes in three spellings, another one between them. -/
def spelled : List (String × Json) :=
  [("SIZE", .int 1), ("Size", .int 2), ("color", .null), ("size", .int 3)]

theorem ofModel_merges_spelled :
    Sorted.Ascending spelled ∧
      ∃ b again, ofModel (.obj spelled) = .ok b ∧ Merges spelled b.entries ∧
        b.entries = [("size", .int 3), ("color", .null)] ∧
        ofModel b.toJson = .ok again ∧ again.entries.Perm b.entries ∧
        again.entries = [("color", .null), ("size", .int 3)] := by
  have hascending : Sorted.Ascending spelled := by
    unfold Sorted.Ascending spelled
    decide
  obtain ⟨b, hb, hmerges, again, hagain, hperm⟩ := ofModel_merges.1 spelled hascending
  obtain rfl : ofList spelled = b := Except.ok.inj hb
  have hentries : (ofList spelled).entries = [("size", .int 3), ("color", .null)] := rfl
  obtain rfl : ofList (Sorted.ofList (ofList spelled).entries) = again := Except.ok.inj hagain
  exact ⟨hascending, _, _, hb, hmerges, hentries, hagain, hperm, rfl⟩

end Bindings

end Templating
