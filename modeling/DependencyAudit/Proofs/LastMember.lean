/-
# DependencyAudit.Proofs.LastMember -- the last of several

Where several members of a list have a property, the one at the last position counts: a
class belongs to the last artifact that holds it, an identity stands for the dependency of
its last artifact.  `LastMember` says so of a member, by the members after it: there is
one (`exists_lastMember_iff`), and only one (`LastMember.unique`), in a longer list that
of the tail if the tail has one (`lastMember_cons`).  Where values overwrite one another,
it keeps the last (`foldl_overwrite`).
-/

namespace DependencyAudit

set_option autoImplicit false

variable {α β : Type}

/-- The member at the last position of a list where a property holds. -/
def LastMember (property : α → Prop) (list : List α) (member : α) : Prop :=
  ∃ before after, list = before ++ member :: after ∧ property member ∧
    ∀ later ∈ after, ¬ property later

namespace LastMember

variable {property : α → Prop} {list : List α} {member : α}

theorem mem (last : LastMember property list member) : member ∈ list := by
  obtain ⟨before, after, rfl, _⟩ := last
  simp

theorem holds (last : LastMember property list member) : property member := by
  obtain ⟨_, _, _, held, _⟩ := last
  exact held

theorem congr {other : α → Prop} (same : ∀ member ∈ list, property member ↔ other member) :
    LastMember property list member ↔ LastMember other list member := by
  refine exists_congr fun before => exists_congr fun after => and_congr_right ?_
  rintro rfl
  refine and_congr (same member (by simp)) (forall₂_congr fun later inTail => ?_)
  exact not_congr (same later (by simp [inTail]))

end LastMember

theorem not_lastMember_nil {property : α → Prop} {member : α} :
    ¬ LastMember property [] member := by
  rintro ⟨before, after, shape, _⟩
  simp at shape

/-- The last member of a longer list is that of its tail, and the head only if the tail has
none. -/
theorem lastMember_cons {property : α → Prop} {head member : α} {tail : List α} :
    LastMember property (head :: tail) member ↔
      LastMember property tail member ∨
        member = head ∧ property head ∧ ∀ later ∈ tail, ¬ property later := by
  constructor
  · rintro ⟨before, after, shape, held, none_later⟩
    cases before with
    | nil =>
        obtain ⟨rfl, rfl⟩ := List.cons.inj shape
        exact .inr ⟨rfl, held, none_later⟩
    | cons first more =>
        obtain ⟨rfl, rfl⟩ := List.cons.inj shape
        exact .inl ⟨more, after, rfl, held, none_later⟩
  · rintro (⟨before, after, rfl, held, none_later⟩ | ⟨rfl, held, none_later⟩)
    · exact ⟨head :: before, after, rfl, held, none_later⟩
    · exact ⟨[], tail, rfl, held, none_later⟩

/-- There is one last member with a property. -/
theorem LastMember.unique {property : α → Prop} {list : List α} {member other : α}
    (last : LastMember property list member) (last' : LastMember property list other) :
    member = other := by
  induction list with
  | nil => exact absurd last not_lastMember_nil
  | cons head tail same =>
      rcases lastMember_cons.mp last with inTail | ⟨rfl, _, none_later⟩
      · rcases lastMember_cons.mp last' with inTail' | ⟨_, _, none_later⟩
        · exact same inTail inTail'
        · exact absurd inTail.holds (none_later member inTail.mem)
      · rcases lastMember_cons.mp last' with inTail' | ⟨rfl, _, _⟩
        · exact absurd inTail'.holds (none_later other inTail'.mem)
        · rfl

/-- There is a last member with a property if any member has it. -/
theorem exists_lastMember_iff {property : α → Prop} {list : List α} :
    (∃ member, LastMember property list member) ↔ ∃ member ∈ list, property member := by
  constructor
  · rintro ⟨member, last⟩
    exact ⟨member, last.mem, last.holds⟩
  · induction list with
    | nil => rintro ⟨member, absent, _⟩; cases absent
    | cons head tail found =>
        rintro ⟨member, listed, held⟩
        by_cases later : ∃ other ∈ tail, property other
        · obtain ⟨other, last⟩ := found later
          exact ⟨other, lastMember_cons.mpr (.inl last)⟩
        · have none_later : ∀ other ∈ tail, ¬ property other :=
            fun other inTail holds => later ⟨other, inTail, holds⟩
          rcases List.mem_cons.mp listed with rfl | inTail
          · exact ⟨member, lastMember_cons.mpr (.inr ⟨rfl, held, none_later⟩)⟩
          · exact absurd held (none_later member inTail)

/-- The last image with a property comes from the last member with such an image. -/
theorem lastMember_filterMap {property : β → Prop} {image : α → Option β} {list : List α}
    {value : β} :
    LastMember property (list.filterMap image) value ↔
      ∃ member, LastMember (fun other => ∃ found, image other = some found ∧ property found)
        list member ∧ image member = some value := by
  induction list with
  | nil =>
      constructor
      · exact fun last => absurd last not_lastMember_nil
      · rintro ⟨member, last, _⟩
        exact absurd last not_lastMember_nil
  | cons head tail same =>
      cases shown : image head with
      | none =>
          rw [List.filterMap_cons_none shown, same]
          simp only [lastMember_cons, shown, reduceCtorEq, false_and, exists_false, and_false,
            or_false]
      | some first =>
          have none_later : (∀ found ∈ tail.filterMap image, ¬ property found) ↔
              ∀ later ∈ tail, ¬ ∃ found, image later = some found ∧ property found := by
            simp only [List.mem_filterMap]
            constructor
            · rintro absent later inTail ⟨found, imaged, held⟩
              exact absent found ⟨later, inTail, imaged⟩ held
            · rintro absent found ⟨later, inTail, imaged⟩ held
              exact absent later inTail ⟨found, imaged, held⟩
          rw [List.filterMap_cons_some shown, lastMember_cons, same, none_later]
          constructor
          · rintro (⟨member, last, imaged⟩ | ⟨rfl, held, absent⟩)
            · exact ⟨member, lastMember_cons.mpr (.inl last), imaged⟩
            · exact ⟨head, lastMember_cons.mpr (.inr ⟨rfl, ⟨value, shown, held⟩, absent⟩), shown⟩
          · rintro ⟨member, last, imaged⟩
            rcases lastMember_cons.mp last with inTail | ⟨rfl, ⟨found, imaged', held⟩, absent⟩
            · exact .inl ⟨member, inTail, imaged⟩
            · obtain rfl : value = found := Option.some.inj (imaged.symm.trans imaged')
              obtain rfl : value = first := Option.some.inj (imaged.symm.trans shown)
              exact .inr ⟨rfl, held, absent⟩

/-- Where each member with a property overwrites what is seen of a state, the last one
stays to be seen. -/
theorem foldl_overwrite {σ : Type} (seen : σ → Option β) (property : α → Prop) (written : α → β)
    {step : σ → α → σ}
    (writes : ∀ state member, property member → seen (step state member) = some (written member))
    (keeps : ∀ state member, ¬ property member → seen (step state member) = seen state)
    {list : List α} {state : σ} {value : β} :
    seen (list.foldl step state) = some value ↔
      (∃ member, LastMember property list member ∧ written member = value) ∨
        (∀ member ∈ list, ¬ property member) ∧ seen state = some value := by
  induction list generalizing state with
  | nil => simp [not_lastMember_nil]
  | cons head tail final =>
      rw [List.foldl_cons, final]
      simp only [lastMember_cons, List.forall_mem_cons]
      constructor
      · rintro (⟨member, last, same⟩ | ⟨none_later, same⟩)
        · exact .inl ⟨member, .inl last, same⟩
        · by_cases held : property head
          · exact .inl ⟨head, .inr ⟨rfl, held, none_later⟩,
              Option.some.inj ((writes state head held).symm.trans same)⟩
          · exact .inr ⟨⟨held, none_later⟩, (keeps state head held).symm.trans same⟩
      · rintro (⟨member, last | ⟨rfl, held, none_later⟩, same⟩ | ⟨⟨other, none_later⟩, same⟩)
        · exact .inl ⟨member, last, same⟩
        · exact .inr ⟨none_later, (writes state member held).trans (congrArg some same)⟩
        · exact .inr ⟨none_later, (keeps state head other).trans same⟩

end DependencyAudit
