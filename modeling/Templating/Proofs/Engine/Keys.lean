import Templating.Cache.Keys

/-!
# Keys of an engine

The names of a group hold no separator, so a key tells which group and which path it is for
(`KeySpace.path_injective`). The keys of a group's partials and of pollers are those of the path
`config` and of that path with a number behind it; the global key is that of no path.
-/

namespace Templating

namespace Group

/-- A group as `make` answers it. -/
def WellNamed (g : Group) : Prop := ∃ area controller, make area controller = .ok g

abbrev Made := { g : Group // g.WellNamed }

theorem checkSegment_eq_ok {field value : String} {u : Unit}
    (h : checkSegment field value = .ok u) :
    ∀ c ∈ value.toList, isSeparator c = false := by
  unfold checkSegment at h
  split at h
  · cases h
  · next hnone =>
    intro c hc
    cases hsep : isSeparator c with
    | false => rfl
    | true => exact absurd (List.any_eq_true.2 ⟨c, hc, hsep⟩) hnone

theorem make_eq_ok {area controller : String} {g : Group} (h : make area controller = .ok g) :
    Text.trim controller ≠ "" ∧ checkSegment "controller" (Text.trim controller) = .ok () ∧
      checkSegment "area" (Text.trim area) = .ok () ∧
      g = ⟨Text.trim area, Text.trim controller⟩ := by
  unfold make at h
  generalize Text.trim area = a at h ⊢
  generalize Text.trim controller = c at h ⊢
  by_cases hnamed : c = ""
  · simp only [hnamed, if_true] at h
    cases h
  · simp only [hnamed, if_false] at h
    cases hcontroller : checkSegment "controller" c with
    | error err =>
      rw [hcontroller] at h
      cases h
    | ok u =>
      cases harea : checkSegment "area" a with
      | error err =>
        rw [hcontroller, harea] at h
        cases h
      | ok u' =>
        rw [hcontroller, harea] at h
        cases h
        exact ⟨hnamed, rfl, rfl, rfl⟩

namespace WellNamed

variable {g : Group} (h : g.WellNamed)

include h

theorem named : g.controller ≠ "" := by
  obtain ⟨area, controller, hmake⟩ := h
  obtain ⟨hnamed, -, -, rfl⟩ := make_eq_ok hmake
  exact hnamed

theorem controller : ∀ c ∈ g.controller.toList, isSeparator c = false := by
  obtain ⟨area, controller, hmake⟩ := h
  obtain ⟨-, hcontroller, -, rfl⟩ := make_eq_ok hmake
  exact checkSegment_eq_ok hcontroller

theorem area : ∀ c ∈ g.area.toList, isSeparator c = false := by
  obtain ⟨area, controller, hmake⟩ := h
  obtain ⟨-, -, harea, rfl⟩ := make_eq_ok hmake
  exact checkSegment_eq_ok harea

theorem colon_not_mem_controller : ':' ∉ g.controller.toList := fun hmem => by
  cases h.controller ':' hmem

theorem colon_not_mem_area : ':' ∉ g.area.toList := fun hmem => by
  cases h.area ':' hmem

theorem slash_not_mem_controller : '/' ∉ g.controller.toList := fun hmem => by
  cases h.controller '/' hmem

theorem slash_not_mem_area : '/' ∉ g.area.toList := fun hmem => by
  cases h.area '/' hmem

end WellNamed

end Group

/-- A text is cut in one way at its first separator. -/
theorem append_separator_injective {sep : Char} {a a' b b' : List Char} (ha : sep ∉ a)
    (ha' : sep ∉ a') (h : a ++ sep :: b = a' ++ sep :: b') : a = a' ∧ b = b' := by
  induction a generalizing a' with
  | nil =>
    cases a' with
    | nil => exact ⟨rfl, (List.cons.inj h).2⟩
    | cons c a' => exact absurd (List.mem_cons.2 (.inl (List.cons.inj h).1)) ha'
  | cons c a ih =>
    cases a' with
    | nil => exact absurd (List.mem_cons.2 (.inl (List.cons.inj h).1.symm)) ha
    | cons c' a' =>
      obtain ⟨rfl, hrest⟩ := List.cons.inj h
      have hsep : sep ∉ a := fun hmem => ha (List.mem_cons_of_mem _ hmem)
      have hsep' : sep ∉ a' := fun hmem => ha' (List.mem_cons_of_mem _ hmem)
      obtain ⟨rfl, rfl⟩ := ih hsep hsep' hrest
      exact ⟨rfl, rfl⟩

namespace KeySpace

variable (k : KeySpace)

theorem toList_path (g : Group) (p : String) :
    (k.path g p).toList = k.keyPrefix.toList ++ ':' ::
      (g.area.toList ++ ':' :: (g.controller.toList ++ ':' :: p.toList)) := by
  simp only [path, Group.display, toString, String.toList_append]
  simp

theorem path_injective {g g' : Group} (h : g.WellNamed) (h' : g'.WellNamed) {p p' : String}
    (heq : k.path g p = k.path g' p') : g = g' ∧ p = p' := by
  have hlist := congrArg String.toList heq
  rw [toList_path, toList_path] at hlist
  have hrest := (List.cons.inj (List.append_cancel_left hlist)).2
  obtain ⟨harea, hrest⟩ :=
    append_separator_injective h.colon_not_mem_area h'.colon_not_mem_area hrest
  obtain ⟨hcontroller, hpath⟩ :=
    append_separator_injective h.colon_not_mem_controller h'.colon_not_mem_controller hrest
  obtain ⟨area, controller⟩ := g
  obtain ⟨area', controller'⟩ := g'
  rw [String.toList_inj] at harea hcontroller hpath
  simp only at harea hcontroller
  subst harea hcontroller
  exact ⟨rfl, hpath⟩

theorem global_ne_path (g : Group) (p : String) : k.global ≠ k.path g p := by
  intro heq
  have hlist := congrArg String.toList heq
  have hglobal : k.global.toList = k.keyPrefix.toList ++ ':' :: "global".toList := by
    simp [global, toString]
  rw [hglobal, toList_path] at hlist
  have hrest := (List.cons.inj (List.append_cancel_left hlist)).2
  have hmem : ':' ∈ "global".toList := by
    rw [hrest]
    exact List.mem_append_right _ List.mem_cons_self
  exact absurd hmem (by decide)

/-- The path whose key is that of a poller. -/
def pollerPath (serial : Nat) : String := "config" ++ Text.hex 32 serial

theorem poller_eq_path (g : Group) (serial : Nat) :
    poller (k.config g) serial = k.path g (pollerPath serial) := by
  rw [← String.toList_inj, poller, config, String.toList_append, toList_path, toList_path]
  simp [pollerPath]

theorem pollerPath_ne_config (serial : Nat) : pollerPath serial ≠ "config" := by
  intro heq
  have hlength := congrArg (fun s : String => s.toList.length) heq
  have hhex : (Text.hex 32 serial).toList.length = 32 := by
    rw [Text.hex, String.toList_ofList, Text.length_hexDigits]
  simp only [pollerPath, String.toList_append, List.length_append, hhex] at hlength
  omega

end KeySpace

end Templating
