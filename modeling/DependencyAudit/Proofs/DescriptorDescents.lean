/-
# DependencyAudit.Proofs.DescriptorDescents -- scanning descriptors octet by octet

A descriptor is scanned in one loop.  It passes over octets that begin no name, also inside of a
character, where none of them is an `L` (`reaches_pass`), and from an `L` on it looks for the next
semicolon among all octets that are left (`findIdx?_semicolon`).

The machine of descriptors looks for no semicolon in advance, it collects.  So the two are
compared name by name, by induction on the octets that are left: behind a name, both are outside
of names again (`reaches_closed`), and without a semicolon both find nothing more
(`reaches_open`).  The whole loop follows (`reaches_descriptor`).
-/
import DependencyAudit.Proofs.Descents

namespace DependencyAudit.TypeText.Descent

open DependencyAudit.Text

set_option autoImplicit false

variable {text : String} {budget : Nat}

/-! ## Outside of names -/

/-- An octet that begins no name is passed over, also inside of a character. -/
theorem reaches_pass {octets rest : List UInt8} (other : ∀ next ∈ octets, next ≠ octet 'L')
    {outcome : Except Fault Unit} {stop : Nat} {found : List String} :
    ∀ {start : Nat}, (Utf8.encodeString text).drop start = octets ++ rest →
      Reaches text (descriptor text budget) (start + octets.length) outcome stop found →
        Reaches text (descriptor text (budget + octets.length)) start outcome stop found := by
  induction octets with
  | nil => exact fun _ reaches => reaches
  | cons next octets passes =>
      intro start behind reaches
      obtain ⟨first, others⟩ := List.forall_mem_cons.mp other
      obtain ⟨inside, later⟩ := drop_succ behind
      rw [List.length_cons, Nat.add_comm octets.length 1, ← Nat.add_assoc] at reaches
      rw [List.length_cons, ← Nat.add_assoc, descriptor]
      refine reaches_peek.bind ?_
      rw [← List.head?_drop, behind, List.cons_append, List.head?_cons, Option.isNone_some,
        if_neg Bool.false_ne_true, if_neg (by simpa using first)]
      exact ((reaches_advance inside).turning (Nat.lt_succ_self start)).bind
        (passes others later reaches)

/-- Where there is no semicolon, no name ends. -/
theorem scan_open {rest : List Char} (open_ : ';' ∉ rest) :
    ∀ reversed, (Descriptor.scan (.inside reversed) rest).2 = [] := by
  induction rest with
  | nil => exact fun _ => rfl
  | cons c rest goes =>
      intro reversed
      obtain ⟨other, others⟩ := not_or.mp (fun same => open_ (List.mem_cons.mpr same))
      simp only [Descriptor.scan, Descriptor.step, if_neg (Ne.symm other)]
      exact goes others _

theorem octets_ne {cs : List Char} {d : Char} (ascii : d.toNat < 128) (absent : d ∉ cs) :
    ∀ next ∈ Utf8.encode cs, next ≠ octet d := by
  rintro next member rfl
  obtain ⟨c, listed, inside⟩ := List.mem_flatMap.mp member
  obtain rfl := (mem_octets_iff ascii inside).mp rfl
  exact absent listed

/-- The first semicolon is found at its octet. -/
theorem findIdx?_semicolon {name more : List Char} (closed : ';' ∉ name) :
    (Utf8.encode (name ++ ';' :: more)).findIdx? (fun next => decide (next = octet ';')) =
      some (width name) := by
  have before : (Utf8.encode name).findIdx? (fun next => decide (next = octet ';')) = none :=
    List.findIdx?_eq_none_iff.mpr fun next member => by
      simpa using octets_ne (by decide) closed next member
  have first : Utf8.encode (';' :: more) = octet ';' :: Utf8.encode more := by
    rw [encode_cons, octets_of_ascii (by decide), List.singleton_append]
  rw [Utf8.encode_append, List.findIdx?_append, before, first, List.findIdx?_cons]
  simp [width]

theorem reaches_octetsFrom {front cs : List Char} (parted : text.toList = front ++ cs)
    (start : Nat) :
    Reaches text (octetsFrom text (width front)) start (.ok (Utf8.encode cs)) start [] := by
  have whole : Boundary text (Utf8.encodeString text).length := ⟨text.toList, [], by simp, rfl⟩
  have safe : (Event.sliced (width front) (Utf8.encodeString text).length).Safe text :=
    ⟨width_le parted, boundary_width parted, whole⟩
  refine (reaches_observe safe).bind ?_
  rw [if_pos (width_le parted), drop_width parted]
  exact reaches_pure _

/-- The machine of descriptors on a name that is closed. -/
theorem scan_closed {name more : List Char} (closed : ';' ∉ name) :
    (Descriptor.scan .outside ('L' :: (name ++ ';' :: more))).2 =
      ClassName.ofInternal (String.ofList name) :: (Descriptor.scan .outside more).2 := by
  have shape : name ++ ';' :: more = (name ++ [';']) ++ more := by simp
  have opens : (Descriptor.scan .outside ('L' :: (name ++ ';' :: more))).2 =
      (Descriptor.scan (.inside []) (name ++ ';' :: more)).2 := rfl
  rw [opens, shape, Descriptor.scan_append, Descriptor.scan_inside closed, List.reverse_nil,
    List.nil_append, ClassName.ofInternal, String.toList_ofList]
  rfl

section Names

variable {front rest name more : List Char}

/-- A turn of the loop that reads a name. -/
theorem reaches_name (parted : text.toList = front ++ 'L' :: (name ++ ';' :: more)) :
    Reaches text (turning do
        let inside ← slice text (width front + 1) (width front + 1 + width name)
        insert (ClassName.ofInternal inside)
        moveTo (width front + 1 + width name + 1)) (width front) (.ok ())
      (width (front ++ 'L' :: (name ++ [';']))) [ClassName.ofInternal (String.ofList name)] := by
  have begun : width front + 1 = width (front ++ ['L']) := (width_concat_ascii (by decide)).symm
  have ended : width (front ++ ['L']) + width name = width (front ++ ['L'] ++ name) := by
    rw [width_append _ name]
  have closed : width (front ++ ['L'] ++ name) + 1 = width (front ++ 'L' :: (name ++ [';'])) := by
    rw [← width_concat_ascii (c := ';') (by decide)]
    simp
  have sliced : text.toList = (front ++ ['L']) ++ (name ++ (';' :: more)) := by simp [parted]
  have whole : text.toList = (front ++ 'L' :: (name ++ [';'])) ++ more := by simp [parted]
  have moves := @width_lt_of_used front ('L' :: (name ++ [';'])) (by simp)
  rw [begun, ended, closed]
  refine Reaches.turning ?_ moves
  exact (reaches_slice sliced _).bind ((reaches_insert _).bind (reaches_moveTo (width_le whole)))

/-- At the beginning of a name all octets behind it are looked at. -/
theorem reaches_begin (parted : text.toList = front ++ 'L' :: rest) :
    Reaches text (peek text) (width front) (.ok (some (octet 'L'))) (width front) [] ∧
      Reaches text (octetsFrom text (width front + 1)) (width front) (.ok (Utf8.encode rest))
        (width front) [] := by
  have whole : text.toList = (front ++ ['L']) ++ rest := by simp [parted]
  have peeked := reaches_peek_at parted
  have taken := reaches_octetsFrom whole (width front)
  rw [(head?_encode (by decide)).mpr List.head?_cons] at peeked
  rw [width_concat_ascii (by decide)] at taken
  exact ⟨peeked, taken⟩

/-- A name that is not closed ends the scan. -/
theorem reaches_open (parted : text.toList = front ++ 'L' :: rest) (open_ : ';' ∉ rest) :
    Reaches text (descriptor text (budget + 1)) (width front) (.ok ()) (width front) [] := by
  obtain ⟨peeked, taken⟩ := reaches_begin parted
  have unfound : (Utf8.encode rest).findIdx? (fun next => decide (next = octet ';')) = none :=
    List.findIdx?_eq_none_iff.mpr fun next member => by
      simpa using octets_ne (by decide) open_ next member
  rw [descriptor]
  refine peeked.bind ?_
  rw [Option.isNone_some, if_neg Bool.false_ne_true, if_pos rfl]
  refine reaches_position.bind (taken.bind ?_)
  rw [unfound]
  exact reaches_pure ()

/-- A name that is closed is found, and the scan goes on behind it. -/
theorem reaches_closed {stop : Nat} {found : List String}
    (parted : text.toList = front ++ 'L' :: (name ++ ';' :: more)) (closed : ';' ∉ name)
    (goes : Reaches text (descriptor text budget) (width (front ++ 'L' :: (name ++ [';'])))
      (.ok ()) stop found) :
    Reaches text (descriptor text (budget + 1)) (width front) (.ok ()) stop
      (ClassName.ofInternal (String.ofList name) :: found) := by
  obtain ⟨peeked, taken⟩ := reaches_begin parted
  rw [descriptor]
  refine peeked.bind ?_
  rw [Option.isNone_some, if_neg Bool.false_ne_true, if_pos rfl]
  refine reaches_position.bind (taken.bind ?_)
  rw [findIdx?_semicolon closed]
  exact (reaches_name parted).bind goes

/-- What begins no name is passed over. -/
theorem reaches_other {c : Char} {stop : Nat} {found : List String}
    (parted : text.toList = front ++ c :: rest) (other : c ≠ 'L')
    (goes : Reaches text (descriptor text budget) (width (front ++ [c])) (.ok ()) stop found) :
    Reaches text (descriptor text (budget + c.utf8Size)) (width front) (.ok ()) stop found := by
  have behind := drop_width parted
  rw [encode_cons] at behind
  rw [width_append, width_singleton] at goes
  rw [← String.length_utf8EncodeChar] at goes ⊢
  exact reaches_pass
    (fun next member same => other ((mem_octets_iff (by decide) member).mp same)) behind goes

end Names

/-- A scan of a descriptor finds what the machine names, and does not fail. -/
theorem reaches_descriptor_at :
    ∀ {cs : List Char} {budget : Nat}, width cs < budget → ∀ front, text.toList = front ++ cs →
      ∃ stop, Reaches text (descriptor text budget) (width front) (.ok ()) stop
        (Descriptor.scan .outside cs).2 := by
  intro cs
  induction size : width cs using Nat.strong_induction_on generalizing cs with
  | _ size shorter =>
      intro budget large front parted
      subst size
      obtain ⟨less, rfl, -⟩ := exists_budget large
      cases cs with
      | nil =>
          rw [descriptor]
          exact ⟨_, (reaches_peek_at parted).bind (reaches_pure ())⟩
      | cons c rest =>
          have size : width (c :: rest) = c.utf8Size + width rest := by
            rw [← List.singleton_append, width_append, width_singleton]
          have positive := c.utf8Size_pos
          by_cases begins : c = 'L'
          · subst begins
            by_cases ends : ';' ∈ rest
            · obtain ⟨name, more, rfl, closed⟩ := List.eq_append_cons_of_mem ends
              have behind : text.toList = (front ++ 'L' :: (name ++ [';'])) ++ more := by
                simp [parted]
              have fewer : width more < width ('L' :: (name ++ ';' :: more)) :=
                @width_lt_of_parted _ ('L' :: (name ++ [';'])) more (by simp) (by simp)
              have enough : width more < less := by omega
              obtain ⟨stop, goes⟩ := shorter _ fewer rfl enough _ behind
              rw [scan_closed closed]
              exact ⟨stop, reaches_closed parted closed goes⟩
            · have unnamed : (Descriptor.scan .outside ('L' :: rest)).2 = [] := scan_open ends []
              rw [unnamed]
              exact ⟨_, reaches_open parted ends⟩
          · have behind : text.toList = (front ++ [c]) ++ rest := by simp [parted]
            have passed : (Descriptor.scan .outside (c :: rest)).2 =
                (Descriptor.scan .outside rest).2 := by
              simp [Descriptor.scan, Descriptor.step, begins]
            have enough : width rest < less + 1 - c.utf8Size := by omega
            have share : less + 1 = less + 1 - c.utf8Size + c.utf8Size := by omega
            obtain ⟨stop, goes⟩ := shorter (width rest) (by omega) rfl enough _ behind
            rw [passed, share]
            exact ⟨stop, reaches_other parted begins goes⟩

/-- **A scan of a descriptor finds what the machine names.** -/
theorem reaches_descriptor (text : String) (large : (Utf8.encodeString text).length < budget) :
    ∃ stop, Reaches text (descriptor text budget) 0 (.ok ()) stop (Descriptor.classTypes text) :=
  reaches_descriptor_at large [] rfl

end DependencyAudit.TypeText.Descent
