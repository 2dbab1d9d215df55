/-
# DependencyAudit.Proofs.Truncation -- class files that are cut off or go on

A class file has no mark at its end: it ends where the last part that it announces ends.  So
what matters of its octets is a beginning of them.  Every reader here is `Decisive`: what it
reads, it reads from a beginning of the octets that it `Needs` in full, and a fault other than
running out of octets is settled by the octets that it has seen.  Readers that are put together
from decisive ones are decisive (`Decisive.bind`), and `take` is where octets run out.

It follows that each class file has one length (`EndsAfter`): with any fewer octets it is found
to be cut off, and octets behind it change nothing (`parse_decided`).  Classes to order end with
their last octet.
-/
import DependencyAudit.Proofs.Builders

namespace DependencyAudit.ClassFile

set_option autoImplicit false

/-! ## Decisive readers -/

namespace Reader

variable {α β : Type}

/-- Octets of which a reader cannot do without the last one, nor any more. -/
def Needs (reader : Reader α) (octets : List UInt8) : Prop :=
  ∀ cut missing, octets = cut ++ missing → missing ≠ [] → reader cut = .error .unexpectedEnd

/-- A reader that is decided by what it has read. -/
structure Decisive (reader : Reader α) : Prop where
  reads : ∀ {octets rest : List UInt8} {value : α}, reader octets = .ok (value, rest) →
    ∃ used, octets = used ++ rest ∧ Answers reader used (.ok value) ∧ Needs reader used
  refuses : ∀ {octets : List UInt8} {error : ClassFileError}, reader octets = .error error →
    error ≠ .unexpectedEnd → ∀ more, reader (octets ++ more) = .error error

theorem bind_apply (first : Reader α) (next : α → Reader β) (octets : List UInt8) :
    (first >>= next) octets = first octets >>= fun answer => next answer.1 answer.2 := rfl

theorem bind_of_error {first : Reader α} {next : α → Reader β} {octets : List UInt8}
    {error : ClassFileError} (failed : first octets = .error error) :
    (first >>= next) octets = .error error := by
  rw [bind_apply, failed]
  rfl

/-- Two readers in sequence need what both need. -/
theorem Needs.bind {first : Reader α} {next : α → Reader β} {octets more : List UInt8} {value : α}
    (answers : Answers first octets (.ok value)) (needs : Needs first octets)
    (later : Needs (next value) more) : Needs (first >>= next) (octets ++ more) := by
  -- A cut behind all that the first reader takes is a cut in what the second one takes.
  have behind : ∀ cut missing, more = cut ++ missing → missing ≠ [] →
      (first >>= next) (octets ++ cut) = .error .unexpectedEnd := by
    intro cut missing shape lacking
    have head : first (octets ++ cut) = .ok (value, cut) := answers cut
    rw [bind_apply, head]
    exact later cut missing shape lacking
  intro cut missing shape lacking
  rcases List.append_eq_append_iff.mp shape with ⟨extra, rfl, rest⟩ | ⟨extra, within, rest⟩
  · exact behind extra missing rest lacking
  · by_cases ended : extra = []
    · subst ended
      rw [List.append_nil] at within
      rw [List.nil_append] at rest
      subst within rest
      simpa using behind [] missing rfl lacking
    · exact bind_of_error (needs cut extra within ended)

theorem decisive_pure (value : α) : Decisive (pure value) where
  reads answered := by
    cases answered
    refine ⟨[], rfl, .pure _, fun cut missing shape lacking => ?_⟩
    exact absurd (List.append_eq_nil_iff.mp shape.symm).2 lacking
  refuses failed := nomatch failed

theorem decisive_fail (error : ClassFileError) : Decisive (fail error : Reader α) where
  reads answered := nomatch answered
  refuses failed _ _ := failed

/-- Taking octets fails only for want of them. -/
theorem decisive_take (count : Nat) : Decisive (take count) where
  reads := by
    intro octets rest value answered
    obtain ⟨rfl, rfl⟩ := take_eq_ok_iff.mp answered
    refine ⟨value, rfl, answers_take value, fun cut missing shape lacking => ?_⟩
    refine take_eq_error_iff.mpr ⟨?_, rfl⟩
    have some_missing := List.length_pos_iff.mpr lacking
    rw [shape, List.length_append]
    omega
  refuses failed other := absurd (take_eq_error_iff.mp failed).2 other

theorem Decisive.bind {first : Reader α} {next : α → Reader β} (decisive : Decisive first)
    (continues : ∀ value, Decisive (next value)) : Decisive (first >>= next) where
  reads := by
    intro octets rest value answered
    rw [bind_apply] at answered
    obtain ⟨⟨middle, behind⟩, read, continued⟩ := Outcome.bind_eq_ok.mp answered
    obtain ⟨used, rfl, answers, needs⟩ := decisive.reads read
    obtain ⟨more, rfl, goesOn, needsMore⟩ := (continues middle).reads continued
    exact ⟨used ++ more, by rw [List.append_assoc], answers.step goesOn,
      .bind answers needs needsMore⟩
  refuses := by
    intro octets error failed other more
    rw [bind_apply] at failed
    cases read : first octets with
    | error cause =>
        rw [read] at failed
        cases failed
        exact bind_of_error (decisive.refuses read other more)
    | ok answer =>
        obtain ⟨value, behind⟩ := answer
        rw [read] at failed
        obtain ⟨used, rfl, answers, _⟩ := decisive.reads read
        have head : first (used ++ (behind ++ more)) = .ok (value, behind ++ more) :=
          answers (behind ++ more)
        rw [List.append_assoc, bind_apply, head]
        exact (continues value).refuses failed other more

/-- What comes to the same answer wherever it is asked needs no octets. -/
theorem decisive_of_answers {reader : Reader α} {answer : Except ClassFileError α}
    (answers : Answers reader [] answer) : Decisive reader where
  reads := by
    intro octets rest value answered
    have same : reader octets = _ := answers octets
    rw [answered] at same
    cases answer with
    | error _ => cases same
    | ok _ =>
        cases same
        refine ⟨[], rfl, answers, fun cut missing shape lacking => ?_⟩
        exact absurd (List.append_eq_nil_iff.mp shape.symm).2 lacking
  refuses := by
    intro octets error failed _ more
    have here : reader octets = _ := answers octets
    have there : reader (octets ++ more) = _ := answers (octets ++ more)
    rw [failed] at here
    cases answer with
    | error _ =>
        cases here
        exact there
    | ok _ => cases here

theorem decisive_ofExcept (outcome : Except ClassFileError α) : Decisive (ofExcept outcome) :=
  decisive_of_answers (answers_ofExcept outcome)

theorem Decisive.map {reader : Reader α} (decisive : Decisive reader) (change : α → β) :
    Decisive (reader >>= fun value => Pure.pure (change value)) :=
  decisive.bind fun value => decisive_pure (change value)

theorem decisive_skip (count : Nat) : Decisive (skip count) :=
  (decisive_take count).map fun _ => ()

theorem decisive_byte : Decisive byte :=
  (decisive_take 1).map _

theorem decisive_word16 : Decisive word16 :=
  (decisive_take 2).map _

theorem decisive_word32 : Decisive word32 :=
  (decisive_take 4).map _

theorem Decisive.times {reader : Reader α} (decisive : Decisive reader) :
    ∀ count, Decisive (times reader count)
  | 0 => decisive_pure []
  | count + 1 => decisive.bind fun first => (decisive.times count).map (first :: ·)

theorem Decisive.counted {reader : Reader α} (decisive : Decisive reader) :
    Decisive (counted reader) :=
  decisive_word16.bind fun count => decisive.times count.toNat

/-- Octets that a decisive reader takes in full are octets that it needs. -/
theorem Decisive.needs {reader : Reader α} (decisive : Decisive reader) {octets : List UInt8}
    {value : α} (answers : Answers reader octets (.ok value)) : Needs reader octets := by
  have read : reader (octets ++ []) = .ok (value, []) := answers []
  obtain ⟨used, shape, _, needs⟩ := decisive.reads read
  rw [List.append_nil, List.append_nil] at shape
  rwa [shape]

end Reader

open Reader

/-! ## Parts of a class file -/

namespace ConstantPool

theorem decisive_untyped (count : Nat) (wide : Bool) :
    Decisive (skip count >>= fun _ => Pure.pure (Constant.untyped, wide)) :=
  (decisive_skip count).map fun _ => (Constant.untyped, wide)

theorem decisive_readConstant : Decisive readConstant := by
  refine decisive_byte.bind fun tag => ?_
  split
  · exact decisive_word16.bind fun length => (decisive_take length.toNat).map _
  · exact decisive_untyped 4 false
  · exact decisive_untyped 4 false
  · exact decisive_untyped 8 true
  · exact decisive_untyped 8 true
  · exact decisive_word16.map _
  · exact decisive_untyped 2 false
  · exact decisive_untyped 2 false
  · exact decisive_untyped 2 false
  · exact decisive_untyped 4 false
  · exact decisive_untyped 4 false
  · exact decisive_untyped 4 false
  · exact decisive_untyped 4 false
  · exact decisive_untyped 4 false
  · exact (decisive_skip 2).bind fun _ => decisive_word16.map _
  · exact decisive_untyped 3 false
  · exact decisive_word16.map _
  · exact decisive_fail _

theorem decisive_readFrom :
    ∀ (count : Nat) (wide : Bool) (constants : Array Constant),
      Decisive (readFrom count wide constants)
  | 0, _, constants => decisive_pure constants
  | count + 1, true, constants => decisive_readFrom count false (constants.push .untyped)
  | count + 1, false, constants => decisive_readConstant.bind fun answer =>
      decisive_readFrom count answer.2 (constants.push answer.1)

theorem decisive_readPool : Decisive readPool :=
  decisive_word16.bind fun count => (decisive_readFrom (count.toNat - 1) false #[.untyped]).map _

end ConstantPool

namespace Attributes

/-- The body of an attribute is read apart, so it is settled before other octets are seen. -/
theorem decisive_add (pool : ConstantPool) (sofar : Attributes) (name : String)
    (body : List UInt8) : Decisive (sofar.add pool name body) :=
  decisive_of_answers (answers_add pool sofar name body)

theorem decisive_readFrom (pool : ConstantPool) :
    ∀ (count : Nat) (sofar : Attributes), Decisive (readFrom pool count sofar)
  | 0, sofar => decisive_pure sofar
  | count + 1, sofar =>
      decisive_word16.bind fun index => decisive_word32.bind fun length =>
        (decisive_take length.toNat).bind fun body =>
          (decisive_ofExcept (pool.text index)).bind fun name =>
            (decisive_add pool sofar name body).bind fun next => decisive_readFrom pool count next

theorem decisive_read (pool : ConstantPool) : Decisive (read pool) :=
  decisive_word16.bind fun count => decisive_readFrom pool count.toNat none

end Attributes

theorem decisive_readMember (pool : ConstantPool) : Decisive (readMember pool) :=
  decisive_word16.bind fun _ => decisive_word16.bind fun nameIndex =>
    decisive_word16.bind fun descriptorIndex => (Attributes.decisive_read pool).bind fun _ =>
      (decisive_ofExcept (pool.text nameIndex)).bind fun _ =>
        (decisive_ofExcept (pool.text descriptorIndex)).map _

theorem decisive_readInterface (pool : ConstantPool) : Decisive (readInterface pool) :=
  decisive_word16.bind fun index => decisive_ofExcept (pool.className index)

theorem decisive_readMagic : Decisive readMagic := by
  refine decisive_word32.bind fun magic => ?_
  split
  · exact decisive_pure ()
  · exact decisive_fail .badMagic

/-- Reading a class file is decided by the octets that have been read. -/
theorem decisive_read : Decisive read :=
  decisive_readMagic.bind fun _ => (decisive_skip 2).bind fun _ => (decisive_skip 2).bind fun _ =>
    ConstantPool.decisive_readPool.bind fun pool => decisive_word16.bind fun _ =>
      decisive_word16.bind fun _ => decisive_word16.bind fun _ =>
        (decisive_readInterface pool).counted.bind fun _ =>
          (decisive_readMember pool).counted.bind fun _ =>
            (decisive_readMember pool).counted.bind fun _ =>
              (Attributes.decisive_read pool).bind fun _ =>
                (decisive_ofExcept _).bind fun _ => (decisive_ofExcept _).bind fun _ =>
                  (decisive_ofExcept _).bind fun _ => (decisive_ofExcept _).map _

/-! ## The length of a class file -/

/-- The class in some octets takes so many of them: any fewer are too few, and whatever follows
them does not matter. -/
structure EndsAfter (octets : List UInt8) (file : ClassFile) (length : Nat) : Prop where
  within : length ≤ octets.length
  cut : ∀ shorter < length, parse (octets.take shorter) = .error .unexpectedEnd
  whole : ∀ more, parse (octets.take length ++ more) = .ok file

theorem EndsAfter.unique {octets : List UInt8} {file other : ClassFile} {length count : Nat}
    (ends : EndsAfter octets file length) (alike : EndsAfter octets other count) :
    length = count := by
  -- The octets up to the smaller one would be too few, and enough.
  rcases Nat.lt_trichotomy length count with less | same | more
  · have enough := ends.whole []
    rw [List.append_nil, alike.cut length less] at enough
    cases enough
  · exact same
  · have enough := alike.whole []
    rw [List.append_nil, ends.cut count more] at enough
    cases enough

theorem parse_eq_ok_iff {octets : List UInt8} {file : ClassFile} :
    parse octets = .ok file ↔ ∃ rest, read octets = .ok (file, rest) := by
  rw [parse, Outcome.map_eq_ok]
  constructor
  · rintro ⟨⟨file, rest⟩, answered, rfl⟩
    exact ⟨rest, answered⟩
  · rintro ⟨rest, answered⟩
    exact ⟨(file, rest), answered, rfl⟩

theorem parse_eq_error_iff {octets : List UInt8} {error : ClassFileError} :
    parse octets = .error error ↔ read octets = .error error := by
  rw [parse, StateT.run]
  cases read octets <;> simp [Except.map]

/-- Octets that are answered and needed in full are those of the class. -/
theorem endsAfter_of_answers (rest : List UInt8) {used : List UInt8} {file : ClassFile}
    (answers : Answers read used (.ok file)) : EndsAfter (used ++ rest) file used.length where
  within := by simp
  cut shorter less := by
    rw [List.take_append_of_le_length (Nat.le_of_lt less), parse_eq_error_iff]
    refine decisive_read.needs answers (used.take shorter) (used.drop shorter)
      (List.take_append_drop shorter used).symm ?_
    simpa using less
  whole more := by
    rw [List.take_left]
    exact parse_eq_ok_iff.mpr ⟨more, answers more⟩

/-- A class to order is read from its octets in full. -/
theorem answers_build {builder : Builder} (fits : builder.Fits) :
    ∃ file, Answers read builder.build (.ok file) := by
  obtain ⟨laid, stock⟩ := laid_of_fits fits
  have linked := laid.linked stock
  have encodable := laid.encodable stock fits.slots fits
  obtain ⟨file, said⟩ := linked.exists_classSaid
  refine ⟨file, ?_⟩
  have answers := answers_read encodable.toFits
  rwa [Layout.resolve_eq_ok_iff.mpr (said.describes linked encodable)] at answers

/-- **Where a class file ends is decided by its octets.**  A class that is read has one length:
cut off before it, it is found to be cut off, and whatever follows does not matter.  Other
faults than a missing end stay what they are, whatever follows.  A class to order is as long as
its octets. -/
theorem parse_decided :
    (∀ octets file, parse octets = .ok file → ∃! length, EndsAfter octets file length) ∧
    (∀ octets error, parse octets = .error error → error ≠ .unexpectedEnd →
      ∀ more, parse (octets ++ more) = .error error) ∧
    ∀ builder : Builder, builder.Fits →
      ∃ file, EndsAfter builder.build file builder.build.length := by
  refine ⟨fun octets file parsed => ?_, fun octets error failed other more => ?_,
    fun builder fits => ?_⟩
  · obtain ⟨rest, answered⟩ := parse_eq_ok_iff.mp parsed
    obtain ⟨used, rfl, answers, _⟩ := decisive_read.reads answered
    exact ⟨used.length, endsAfter_of_answers rest answers, fun count ends =>
      ends.unique (endsAfter_of_answers rest answers)⟩
  · rw [parse_eq_error_iff] at failed ⊢
    exact decisive_read.refuses failed other more
  · obtain ⟨file, answers⟩ := answers_build fits
    have ends := endsAfter_of_answers [] answers
    rw [List.append_nil] at ends
    exact ⟨file, ends⟩

/-- A class to order with an octet behind it still ends where it did, and a wrong magic number
stays one. -/
theorem parse_decided_of_full :
    (∃ file, parse (Full.order.build ++ [0xCA]) = .ok file ∧
      (∃! length, EndsAfter (Full.order.build ++ [0xCA]) file length) ∧
      EndsAfter Full.order.build file Full.order.build.length) ∧
    parse ([0xCA, 0xFE, 0xBA, 0xBF] ++ [0, 0]) = .error .badMagic := by
  obtain ⟨settled, settledFault, built⟩ := parse_decided
  obtain ⟨file, ends⟩ := built Full.order Full.fits
  have parsed := ends.whole [0xCA]
  rw [List.take_length] at parsed
  refine ⟨⟨file, parsed, settled _ file parsed, ends⟩, ?_⟩
  exact settledFault [0xCA, 0xFE, 0xBA, 0xBF] .badMagic (by rfl) (by decide) [0, 0]

end DependencyAudit.ClassFile
