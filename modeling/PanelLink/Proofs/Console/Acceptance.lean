/-
**Which lines the console accepts.**

A line is documented as hexadecimal numbers apart by white space, each with a mark or without. The
digits of a number are read by a general rule for numerals, which allows a plus sign before them.

* `WritesAsDescribed` and `ReadsAsDescribed`: what a write and a read come to, for a line;
* `Slips`: all words that are looked at are taken, and one of them has a plus sign;
* **`described_iff`**: a line is written as described exactly if it does not slip, and read as described
  exactly if it does not slip or has several words, but not too many;
* `plus_sign_accepted`: a line that slips reaches the channel.
-/

import PanelLink.Proofs.Console.Commands

namespace PanelLink.Console

open Text (Spaced)

/-! ### What a line should come to -/

/-- There are more than 128 words, and the first 129 of them are numbers. -/
def Overfull (line : String) : Prop :=
  ∃ words, Spaced words line.toList ∧ 128 < words.length ∧
    ∀ word ∈ words.take 129, ∃ number, Numeral word number

/-- **A write line is accepted as documented**, on every bank over every channel. -/
structure WritesAsDescribed (line : String) : Prop where
  /-- A line that lists up to 128 numbers is one write of the channel. -/
  accepted : ∀ {m : Type → Type} [Monad m] [LawfulMonad m] (bank : RegisterBank m)
    (address : Nat) {register : Nat} {numbers : List Nat}, Lists line (register :: numbers) →
      numbers.length < 128 →
      writeLine bank address line =
        bank.channel.write bank.context register (payload bank.config.width address numbers)
  /-- A line that begins with too many numbers is refused as too long. -/
  overfull : ∀ {m : Type → Type} [Monad m] [LawfulMonad m] (bank : RegisterBank m) (address : Nat),
    Overfull line → writeLine bank address line = throw .resourceExhausted
  /-- Any other line is refused as wrong. -/
  misused : ∀ {m : Type → Type} [Monad m] [LawfulMonad m] (bank : RegisterBank m) (address : Nat),
    (∀ numbers, Lists line numbers → numbers = [] ∨ 128 < numbers.length) → ¬Overfull line →
      ∃ misuse, writeLine bank address line = throw (.invalidArgument misuse)

/-- **A read line is accepted as documented**, on every bank that reads, over every channel. -/
structure ReadsAsDescribed (line : String) : Prop where
  /-- A line of one number is one read of the channel. -/
  accepted : ∀ {m : Type → Type} [Monad m] (console : Console) {bank : RegisterBank m}
    {register : Nat}, bank.config.readable = true → Lists line [register] →
      readLine console bank line =
        bank.channel.read bank.context register (console.request bank) >>= fun reading =>
          pure (console.afterRead bank reading, reading.outcome)
  /-- A line that begins with too many numbers is refused as too long. -/
  overfull : ∀ {m : Type → Type} [Monad m] (console : Console) (bank : RegisterBank m),
    Overfull line → readLine console bank line = pure (console, .error .resourceExhausted)
  /-- Any other line is refused as wrong. -/
  misused : ∀ {m : Type → Type} [Monad m] (console : Console) (bank : RegisterBank m),
    (∀ register, ¬Lists line [register]) → ¬Overfull line →
      ∃ misuse, readLine console bank line = pure (console, .error (.invalidArgument misuse))

/-- All words that are looked at are taken, and one of them has a plus sign. -/
def Slips (words : List (List Char)) : Prop :=
  (∀ word ∈ words.take 129, ∃ number, Taken word number) ∧
    ∃ word ∈ words.take 129, ∃ number, SignedNumeral word number

/-! ### Words with a plus sign -/

/-- A word with a plus sign is no numeral. -/
theorem SignedNumeral.not_numeral {word : List Char} {number other : Nat}
    (signed : SignedNumeral word number) : ¬Numeral word other := by
  obtain ⟨-, mark, isMark, digits, rfl, -⟩ := signed
  rintro ⟨-, markToo, isMarkToo, digitsToo, same, spells⟩
  have both := congrArg unmarked same
  rw [unmarked_append isMark (unmarked_plus digits),
    unmarked_append isMarkToo (unmarked_of_spells spells)] at both
  rw [← both] at spells
  exact Text.not_spells_plus (Nat.le_refl 16) spells

variable {line : String}

theorem lists_iff {numbers : List Nat} :
    Lists line numbers ↔ List.Forall₂ Numeral (Text.tokens line.toList) numbers := by
  constructor
  · rintro ⟨words, spaced, numerals⟩
    rwa [spaced.tokens_eq]
  · exact fun numerals => ⟨_, Text.spaced_tokens _, numerals⟩

theorem overfull_iff : Overfull line ↔ 128 < (Text.tokens line.toList).length ∧
    ∀ word ∈ (Text.tokens line.toList).take 129, ∃ number, Numeral word number := by
  constructor
  · rintro ⟨words, spaced, many, numerals⟩
    rw [spaced.tokens_eq]
    exact ⟨many, numerals⟩
  · exact fun both => ⟨_, Text.spaced_tokens _, both⟩

theorem parseLine_of_lists {register : Nat} {numbers : List Nat}
    (listed : Lists line (register :: numbers)) (few : numbers.length < 128) :
    parseLine line = .ok (register, numbers) :=
  parseLine_of_taken ((lists_iff.mp listed).imp fun _ _ => Or.inl) few

theorem parseLine_of_overfull (overfull : Overfull line) :
    parseLine line = .error .resourceExhausted := by
  obtain ⟨many, numerals⟩ := overfull_iff.mp overfull
  exact parseLine_of_many (fun word member => (numerals word member).imp fun _ => Or.inl) many

/-! ### Lines that do not slip -/

/-- Words that are taken are numerals where none has a plus sign. -/
theorem numeral_of_not_slips {words : List (List Char)} (steady : ¬Slips words)
    (taken : ∀ word ∈ words.take 129, ∃ number, Taken word number) {word : List Char}
    (member : word ∈ words.take 129) {number : Nat} (entry : Taken word number) :
    Numeral word number :=
  entry.resolve_right fun signed => steady ⟨taken, word, member, number, signed⟩

/-- **A line that does not slip** is parsed as it lists, refused as too long or refused as wrong. -/
theorem parseLine_of_not_slips (steady : ¬Slips (Text.tokens line.toList)) :
    (∃ register numbers, Lists line (register :: numbers) ∧ numbers.length < 128 ∧
      parseLine line = .ok (register, numbers)) ∨
    (Overfull line ∧ parseLine line = .error .resourceExhausted) ∨
    ∃ misuse, parseLine line = .error (.invalidArgument misuse) := by
  rcases parseLine_cases line with
    ⟨register, numbers, all, few, parsed⟩ | ⟨taken, many, parsed⟩ | ⟨-, refused⟩
  · have whole : (Text.tokens line.toList).take 129 = Text.tokens line.toList := by
      refine List.take_of_length_le ?_
      rw [all.length_eq]
      exact Nat.succ_le_succ few.le
    have taken : ∀ word ∈ (Text.tokens line.toList).take 129, ∃ number, Taken word number := by
      rw [whole]
      exact exists_of_forall₂ all
    have plain (word : List Char) (member : word ∈ Text.tokens line.toList) (number : Nat)
        (entry : Taken word number) : Numeral word number :=
      numeral_of_not_slips steady taken (whole.symm ▸ member) entry
    have numerals := ((List.forall₂_and_left _ _).mpr ⟨plain, all⟩).imp fun word number both =>
      both.1 number both.2
    exact .inl ⟨register, numbers, lists_iff.mpr numerals, few, parsed⟩
  · exact .inr (.inl ⟨overfull_iff.mpr ⟨many, fun word member => (taken word member).imp fun _ =>
      numeral_of_not_slips steady taken member⟩, parsed⟩)
  · exact .inr (.inr refused)

/-! ### Lines that slip -/

namespace Slips

variable (slips : Slips (Text.tokens line.toList))

include slips

/-- A line that slips lists no numbers. -/
theorem not_lists (numbers : List Nat) : ¬Lists line numbers := by
  intro listed
  obtain ⟨-, word, member, number, signed⟩ := slips
  obtain ⟨other, numeral⟩ :=
    exists_of_forall₂ (lists_iff.mp listed) word (List.mem_of_mem_take member)
  exact signed.not_numeral numeral

theorem not_overfull : ¬Overfull line := by
  intro overfull
  obtain ⟨-, word, member, number, signed⟩ := slips
  obtain ⟨other, numeral⟩ := (overfull_iff.mp overfull).2 word member
  exact signed.not_numeral numeral

/-- **It is parsed**, or refused as too long, and never refused as wrong. -/
theorem parsed :
    (∃ register numbers, (Text.tokens line.toList).length = numbers.length + 1 ∧
      numbers.length < 128 ∧ parseLine line = .ok (register, numbers)) ∨
    (128 < (Text.tokens line.toList).length ∧ parseLine line = .error .resourceExhausted) := by
  obtain ⟨taken, signed⟩ := slips
  rcases parseLine_cases line with
    ⟨register, numbers, all, few, parsed⟩ | ⟨-, many, parsed⟩ | ⟨none | ⟨word, member, refused⟩, -⟩
  · exact .inl ⟨register, numbers, all.length_eq, few, parsed⟩
  · exact .inr ⟨many, parsed⟩
  · rw [none] at signed
    obtain ⟨word, member, -⟩ := signed
    exact absurd member List.not_mem_nil
  · obtain ⟨number, entry⟩ := taken word member
    exact absurd entry (refused number)

end Slips

/-- A bank whose channel does whatever it is asked. -/
def willing : RegisterBank Id where
  channel :=
    { readable := true
      write := fun _ _ _ => pure ()
      read := fun _ _ _ => pure (.complete [0])
      reset := pure () }
  config := { readable := true }

/-- **A line that slips is not written as described.** -/
theorem Slips.not_writesAsDescribed (slips : Slips (Text.tokens line.toList)) :
    ¬WritesAsDescribed line := by
  intro described
  obtain ⟨misuse, refused⟩ := described.misused willing 0
    (fun numbers listed => absurd listed (slips.not_lists numbers)) slips.not_overfull
  rcases slips.parsed with ⟨register, numbers, -, -, parsed⟩ | ⟨-, parsed⟩
  · rw [writeLine_of_parsed willing 0 parsed] at refused
    cases refused
  · rw [writeLine_of_refused willing 0 parsed] at refused
    cases refused

/-- **Nor is it read as described**, if it has one word or too many. -/
theorem Slips.not_readsAsDescribed (slips : Slips (Text.tokens line.toList))
    (counts : (Text.tokens line.toList).length = 1 ∨ 128 < (Text.tokens line.toList).length) :
    ¬ReadsAsDescribed line := by
  intro described
  obtain ⟨misuse, refused⟩ := described.misused {} willing
    (fun register => slips.not_lists [register]) slips.not_overfull
  rcases slips.parsed with ⟨register, numbers, count, few, parsed⟩ | ⟨-, parsed⟩
  · obtain rfl : numbers = [] := by
      refine List.eq_nil_of_length_eq_zero ?_
      omega
    rw [readLine_of_parsed {} rfl parsed] at refused
    cases refused
  · rw [readLine_of_refused {} willing parsed] at refused
    cases refused

/-! ### Both commands -/

theorem writesAsDescribed_of_not_slips (steady : ¬Slips (Text.tokens line.toList)) :
    WritesAsDescribed line where
  accepted bank address _ _ listed few :=
    writeLine_of_parsed bank address (parseLine_of_lists listed few)
  overfull bank address overfull :=
    writeLine_of_refused bank address (parseLine_of_overfull overfull)
  misused bank address unlisted room := by
    rcases parseLine_of_not_slips steady with
      ⟨register, numbers, listed, few, -⟩ | ⟨overfull, -⟩ | ⟨misuse, parsed⟩
    · rcases unlisted _ listed with none | many
      · cases none
      · exact absurd few (Nat.not_lt.mpr (Nat.le_of_lt_succ many))
    · exact absurd overfull room
    · exact ⟨misuse, writeLine_of_refused bank address parsed⟩

theorem readsAsDescribed_of_not_slips
    (steady : ¬(Slips (Text.tokens line.toList) ∧
      ((Text.tokens line.toList).length = 1 ∨ 128 < (Text.tokens line.toList).length))) :
    ReadsAsDescribed line where
  accepted console _ _ readable listed :=
    readLine_of_parsed console readable (parseLine_of_lists listed (by decide))
  overfull console bank overfull := readLine_of_refused console bank (parseLine_of_overfull overfull)
  misused console bank unlisted room := by
    by_cases slips : Slips (Text.tokens line.toList)
    · -- The line has several words, and not too many.
      have counts := not_or.mp fun counts => steady ⟨slips, counts⟩
      rcases slips.parsed with ⟨register, numbers, count, -, parsed⟩ | ⟨many, -⟩
      · cases numbers with
        | nil => exact absurd count counts.1
        | cons first others => exact ⟨_, readLine_of_several console bank parsed⟩
      · exact absurd many counts.2
    · rcases parseLine_of_not_slips slips with
        ⟨register, numbers, listed, -, parsed⟩ | ⟨overfull, -⟩ | ⟨misuse, parsed⟩
      · cases numbers with
        | nil => exact absurd listed (unlisted register)
        | cons first others => exact ⟨_, readLine_of_several console bank parsed⟩
      · exact absurd overfull room
      · exact ⟨misuse, readLine_of_refused console bank parsed⟩

/-- **When a line is accepted as documented.** A write line is, exactly if it does not slip: unless all
of its first 129 words are taken and one of them has a plus sign before its digits. A read line is, even
if it slips, as long as it has several words and not too many. -/
theorem described_iff (line : String) :
    (WritesAsDescribed line ↔ ¬Slips (Text.tokens line.toList)) ∧
      (ReadsAsDescribed line ↔ ¬(Slips (Text.tokens line.toList) ∧
        ((Text.tokens line.toList).length = 1 ∨ 128 < (Text.tokens line.toList).length))) := by
  refine ⟨⟨fun described slips => slips.not_writesAsDescribed described,
    writesAsDescribed_of_not_slips⟩, ⟨fun described slips => ?_, readsAsDescribed_of_not_slips⟩⟩
  exact slips.1.not_readsAsDescribed slips.2 described

/-- **A plus sign is accepted** after the mark: the line is no number, but it is written and read as
register 0x2C. -/
theorem plus_sign_accepted :
    (∀ numbers, ¬Lists "0x+2c" numbers) ∧
      (writeLine willing 0 "0x+2c" = pure () ∧ ¬WritesAsDescribed "0x+2c") ∧
      (readLine {} willing "0x+2c" = pure ({ result := some "00\n" }, .ok ()) ∧
        ¬ReadsAsDescribed "0x+2c") := by
  have words : Text.tokens "0x+2c".toList = ["0x+2c".toList] := by decide +kernel
  have signed : SignedNumeral "0x+2c".toList 0x2C := by
    refine ⟨by decide, "0x".toList, by decide, "2c".toList, rfl, by decide, [2, 12], ?_, rfl⟩
    exact .cons ⟨by decide, by decide⟩ (.cons ⟨by decide, by decide⟩ .nil)
  have slips : Slips (Text.tokens "0x+2c".toList) := by
    rw [words]
    exact ⟨List.forall_mem_singleton.mpr ⟨_, .inr signed⟩, _, List.mem_singleton_self _, _, signed⟩
  have parsed : parseLine "0x+2c" = .ok (0x2C, []) :=
    parseLine_of_taken (words ▸ .cons (.inr signed) .nil) (by decide)
  refine ⟨slips.not_lists, ⟨?_, slips.not_writesAsDescribed⟩, ?_,
    slips.not_readsAsDescribed (.inl (congrArg List.length words))⟩
  · rw [writeLine_of_parsed willing 0 parsed]
    rfl
  · rw [readLine_of_parsed {} rfl parsed]
    rfl

end PanelLink.Console
