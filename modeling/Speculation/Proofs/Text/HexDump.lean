import Speculation.Text.Hex

/-!
# What a hex dump spells

`Spells cs bs` says that the characters `cs` write the bytes `bs`, two digits of either case to a
byte. `Accepts` is what the reader takes for that, which is more: a byte may also be a plus sign and
one digit. Among the texts without a plus sign the reader therefore accepts just the dumps, and it
gives back the bytes of every dump, wherever blanks and commas stand in it.

The reader cuts its text into pairs of UTF-8 bytes before it looks at what they are. It refuses a pair
that is no byte, but on a pair that ends inside of a character it cannot go on at all; `Splits` tells
which characters make it do that. It happens only behind a part that is accepted
(`bytes_eq_splitCharacter_iff`), and never in ASCII.
-/

namespace Speculation

namespace Hex

open Double (hexDigit?)

/-! ### Digits -/

section Digits

variable {c : Char} {i : Nat}

/-- The characters that are hexadecimal digits. -/
def alphabet : List Char := "0123456789abcdefABCDEF".toList

theorem toNat_lt_of_hexDigit? (digit : (hexDigit? c).isSome) : c.toNat < 128 := by
  have below {d : Char} (le : c ≤ d) (small : d.toNat < 128) : c.toNat < 128 :=
    Nat.lt_of_le_of_lt le small
  unfold hexDigit? at digit
  split at digit
  · rename_i decimal
    exact below (d := '9') (of_decide_eq_true (Bool.and_eq_true_iff.1 decimal).2) (by decide)
  · split at digit
    · rename_i lower
      exact below lower.2 (by decide)
    · split at digit
      · rename_i upper
        exact below upper.2 (by decide)
      · cases digit

/-- What holds of the ASCII characters holds of every digit. -/
theorem of_ascii {P : Char → Prop} (ascii : ∀ n < 128, P (Char.ofNat n))
    (digit : (hexDigit? c).isSome) : P c := by
  have p := ascii c.toNat (toNat_lt_of_hexDigit? digit)
  rwa [Char.ofNat_toNat] at p

/-- The digits are the characters of the alphabet. -/
theorem hexDigit?_isSome_iff : (hexDigit? c).isSome ↔ c ∈ alphabet := by
  constructor
  · intro digit
    exact of_ascii (P := fun c => (hexDigit? c).isSome → c ∈ alphabet) (by decide) digit digit
  · have all : alphabet.all fun c => (hexDigit? c).isSome := by decide
    exact List.all_eq_true.mp all c

theorem utf8Size_of_hexDigit? (digit : (hexDigit? c).isSome) : c.utf8Size = 1 :=
  of_ascii (P := fun c => c.utf8Size = 1) (by decide) digit

end Digits

/-! ### What characters spell -/

/-- The characters write the bytes, two digits to a byte. -/
inductive Spells : List Char → List UInt8 → Prop where
  | nil : Spells [] []
  | byte {c d : Char} {cs : List Char} {i j : Nat} {bs : List UInt8} (high : hexDigit? c = some i)
      (low : hexDigit? d = some j) (rest : Spells cs bs) :
      Spells (c :: d :: cs) (UInt8.ofNat (16 * i + j) :: bs)

/-- What is read as bytes: digits, and plus signs in front of single ones. -/
inductive Accepts : List Char → List UInt8 → Prop where
  | nil : Accepts [] []
  | byte {c d : Char} {cs : List Char} {i j : Nat} {bs : List UInt8} (high : hexDigit? c = some i)
      (low : hexDigit? d = some j) (rest : Accepts cs bs) :
      Accepts (c :: d :: cs) (UInt8.ofNat (16 * i + j) :: bs)
  | plus {d : Char} {cs : List Char} {j : Nat} {bs : List UInt8} (low : hexDigit? d = some j)
      (rest : Accepts cs bs) : Accepts ('+' :: d :: cs) (UInt8.ofNat j :: bs)

section Spelling

variable {cs : List Char} {bs : List UInt8}

/-- What spells bytes is accepted for them. -/
theorem Spells.accepts (s : Spells cs bs) : Accepts cs bs := by
  induction s with
  | nil => exact .nil
  | byte high low _ ih => exact .byte high low ih

/-- A plus sign is all that tells what is accepted from a dump. -/
theorem spells_iff_accepts (unsigned : '+' ∉ cs) : Spells cs bs ↔ Accepts cs bs := by
  refine ⟨Spells.accepts, fun a => ?_⟩
  induction a with
  | nil => exact .nil
  | byte high low _ ih =>
    exact .byte high low (ih fun plus => unsigned (List.mem_cons_of_mem _ (List.mem_cons_of_mem _ plus)))
  | plus => exact absurd (List.mem_cons_self ..) unsigned

/-- An even number of digits spells some bytes. -/
theorem exists_spells :
    ∀ {cs : List Char}, cs.length % 2 = 0 → (∀ c ∈ cs, c ∈ alphabet) → ∃ bs, Spells cs bs
  | [], _, _ => ⟨[], .nil⟩
  | [_], even, _ => absurd even (by simp)
  | c :: d :: cs, even, digits => by
    simp only [List.mem_cons, forall_eq_or_imp] at digits
    obtain ⟨first, second, digits⟩ := digits
    obtain ⟨i, high⟩ := Option.isSome_iff_exists.1 (hexDigit?_isSome_iff.2 first)
    obtain ⟨j, low⟩ := Option.isSome_iff_exists.1 (hexDigit?_isSome_iff.2 second)
    simp only [List.length_cons] at even
    obtain ⟨bs, s⟩ := exists_spells (by omega) digits
    exact ⟨_, .byte high low s⟩

/-- A dump has an even number of characters, all of them digits. -/
theorem exists_spells_iff : (∃ bs, Spells cs bs) ↔ cs.length % 2 = 0 ∧ ∀ c ∈ cs, c ∈ alphabet := by
  refine ⟨?_, fun ⟨even, digits⟩ => exists_spells even digits⟩
  rintro ⟨bs, s⟩
  induction s with
  | nil => exact ⟨rfl, by simp⟩
  | byte high low _ ih =>
    have first := hexDigit?_isSome_iff.1 (Option.isSome_of_eq_some high)
    have second := hexDigit?_isSome_iff.1 (Option.isSome_of_eq_some low)
    refine ⟨?_, by simpa [first, second] using ih.2⟩
    simp only [List.length_cons]
    omega

end Spelling

/-! ### Reading pairs -/

/-- The next pair of UTF-8 bytes ends inside of a character. -/
def Splits : List Char → Prop
  | [] => False
  | [c] => 2 < c.utf8Size
  | c :: d :: _ => 2 < c.utf8Size ∨ c.utf8Size = 1 ∧ 1 < d.utf8Size

section Reading

variable {cs : List Char} {bs : List UInt8} {c d : Char} {b : UInt8}

/-- A pair is read as two digits, or as one behind a plus sign. -/
theorem byte?_eq_some_iff : byte? c d = some b ↔
    (∃ i j, hexDigit? c = some i ∧ hexDigit? d = some j ∧ UInt8.ofNat (16 * i + j) = b) ∨
      c = '+' ∧ ∃ j, hexDigit? d = some j ∧ UInt8.ofNat j = b := by
  unfold byte?
  by_cases plus : c = '+'
  · subst plus
    have none : hexDigit? '+' = none := by decide
    simp [none]
  · cases hexDigit? c <;> cases hexDigit? d <;> simp [plus]

theorem byte?_isSome_sizes (spelled : byte? c d = some b) : c.utf8Size = 1 ∧ d.utf8Size = 1 := by
  rcases byte?_eq_some_iff.1 spelled with ⟨i, j, high, low, -⟩ | ⟨rfl, j, low, -⟩
  · exact ⟨utf8Size_of_hexDigit? (Option.isSome_of_eq_some high),
      utf8Size_of_hexDigit? (Option.isSome_of_eq_some low)⟩
  · exact ⟨by decide, utf8Size_of_hexDigit? (Option.isSome_of_eq_some low)⟩

/-- A pair that is a byte is read, and reading goes on behind it. -/
theorem bytes_pair (spelled : byte? c d = some b) (cs : List Char) :
    bytes (c :: d :: cs) = (bytes cs).map (b :: ·) := by
  obtain ⟨first, second⟩ := byte?_isSome_sizes spelled
  simp [bytes, first, second, spelled]

/-- What is accepted is read. -/
theorem bytes_of_accepts (a : Accepts cs bs) : bytes cs = .ok bs := by
  induction a with
  | nil => rfl
  | byte high low _ ih =>
    rw [bytes_pair (byte?_eq_some_iff.2 (.inl ⟨_, _, high, low, rfl⟩)), ih]
    rfl
  | plus low _ ih =>
    rw [bytes_pair (byte?_eq_some_iff.2 (.inr ⟨rfl, _, low, rfl⟩)), ih]
    rfl

/-- What is read is accepted. -/
theorem accepts_of_bytes (read : bytes cs = .ok bs) : Accepts cs bs := by
  fun_induction bytes cs generalizing bs with
  | case1 =>
    cases read
    exact .nil
  | case6 c d rest _ _ b spelled ih =>
    cases more : bytes rest <;> rw [more] at read <;> cases read
    rcases byte?_eq_some_iff.1 spelled with ⟨i, j, high, low, rfl⟩ | ⟨rfl, j, low, rfl⟩
    · exact .byte high low (ih more)
    · exact .plus low (ih more)
  | _ => cases read

theorem bytes_eq_ok_iff : bytes cs = .ok bs ↔ Accepts cs bs :=
  ⟨accepts_of_bytes, bytes_of_accepts⟩

/-- A pair that ends inside of a character is not read. -/
theorem bytes_of_splits (s : Splits cs) : bytes cs = .error .splitCharacter := by
  match cs with
  | [] => exact s.elim
  | [c] =>
    have wide : 2 < c.utf8Size := s
    rw [bytes, if_neg (by omega)]
  | c :: d :: cs =>
    have wide : 2 < c.utf8Size ∨ c.utf8Size = 1 ∧ 1 < d.utf8Size := s
    rw [bytes, if_neg (by omega), if_neg (by omega)]

theorem utf8ByteSize_cons (c : Char) (cs : List Char) :
    (String.ofList (c :: cs)).utf8ByteSize = c.utf8Size + (String.ofList cs).utf8ByteSize := by
  rw [String.ofList_cons, String.utf8ByteSize_append, String.utf8ByteSize_singleton]

/-- Reading stops inside of a character just where such a pair stands behind an accepted part. -/
theorem bytes_eq_splitCharacter_iff (even : (String.ofList cs).utf8ByteSize % 2 = 0) :
    bytes cs = .error .splitCharacter ↔
      ∃ read bs rest, cs = read ++ rest ∧ Accepts read bs ∧ Splits rest := by
  constructor
  -- By the recursion of `bytes`: it stops inside a character where a pair of bytes is not a pair
  -- of characters.
  · intro split
    fun_induction bytes cs with
    | case1 => cases split
    | case2 => cases split
    -- A single character left over is one of at least three bytes, since their number is even.
    | case3 c two =>
      have wide : 2 < c.utf8Size := by
        have := c.utf8Size_pos
        rw [utf8ByteSize_cons] at even
        simp at even
        omega
      exact ⟨[], [], [c], rfl, .nil, wide⟩
    | case4 => cases split
    | case5 => cases split
    | case6 c d rest _ sizes b spelled ih =>
      rw [utf8ByteSize_cons, utf8ByteSize_cons, sizes.1, sizes.2] at even
      have more : bytes rest = .error .splitCharacter := by
        cases more : bytes rest <;> rw [more] at split <;> cases split
        rfl
      obtain ⟨read, bs, rest, rfl, a, s⟩ := ih (by omega) more
      rcases byte?_eq_some_iff.1 spelled with ⟨i, j, high, low, rfl⟩ | ⟨rfl, j, low, rfl⟩
      · exact ⟨_, _, rest, rfl, .byte high low a, s⟩
      · exact ⟨_, _, rest, rfl, .plus low a, s⟩
    | case7 c d rest two sizes =>
      have wide : 2 < c.utf8Size ∨ c.utf8Size = 1 ∧ 1 < d.utf8Size := by
        have := c.utf8Size_pos
        have := d.utf8Size_pos
        omega
      exact ⟨[], [], c :: d :: rest, rfl, .nil, wide⟩
  · rintro ⟨read, bs, rest, rfl, a, s⟩
    -- The characters read before do not stop it: one case for each way to spell a byte.
    clear even
    induction a with
    | nil => exact bytes_of_splits s
    | byte high low _ ih =>
      rw [List.cons_append, List.cons_append,
        bytes_pair (byte?_eq_some_iff.2 (.inl ⟨_, _, high, low, rfl⟩)), ih]
      rfl
    | plus low _ ih =>
      rw [List.cons_append, List.cons_append,
        bytes_pair (byte?_eq_some_iff.2 (.inr ⟨rfl, _, low, rfl⟩)), ih]
      rfl

end Reading

/-! ### Reading texts -/

section Text

variable {text : String} {bs : List UInt8}

/-- The characters of a text that are neither blanks nor commas. -/
def kept (text : String) : List Char :=
  text.toList.filter fun c => !Text.isBlank c && c != ','

theorem digits_eq (text : String) : digits text =
    match kept text with
    | '0' :: 'x' :: rest => rest
    | cs => cs := rfl

/-- No dump starts with the sign that may stand in front of one. -/
theorem digits_of_spells (s : Spells (kept text) bs) : digits text = kept text := by
  rw [digits_eq]
  split
  · rename_i rest e
    rw [e] at s
    have none : hexDigit? 'x' = none := by decide
    cases s with
    | byte _ low _ => exact absurd (none.symm.trans low) (by simp)
  · rfl

/-- What is accepted takes two bytes of text for each byte. -/
theorem Accepts.utf8ByteSize {cs : List Char} (a : Accepts cs bs) :
    (String.ofList cs).utf8ByteSize = 2 * bs.length := by
  induction a with
  | nil => rfl
  | byte high low _ ih =>
    rw [utf8ByteSize_cons, utf8ByteSize_cons, ih, List.length_cons,
      utf8Size_of_hexDigit? (Option.isSome_of_eq_some high),
      utf8Size_of_hexDigit? (Option.isSome_of_eq_some low)]
    omega
  | plus low _ ih =>
    have sign : Char.utf8Size '+' = 1 := by decide
    rw [utf8ByteSize_cons, utf8ByteSize_cons, ih, List.length_cons, sign,
      utf8Size_of_hexDigit? (Option.isSome_of_eq_some low)]
    omega

/-- A dump is read if its digits are accepted. -/
theorem parse_eq_ok_iff : parse text = .ok bs ↔ Accepts (digits text) bs := by
  unfold parse
  dsimp only
  split
  · rename_i odd
    refine ⟨fun read => (by cases read), fun a => ?_⟩
    rw [a.utf8ByteSize] at odd
    omega
  · exact bytes_eq_ok_iff

theorem parse_eq_splitCharacter_iff : parse text = .error .splitCharacter ↔
    (String.ofList (digits text)).utf8ByteSize % 2 = 0 ∧
      ∃ read bs rest, digits text = read ++ rest ∧ Accepts read bs ∧ Splits rest := by
  unfold parse
  dsimp only
  split
  · rename_i odd
    refine ⟨fun read => (by cases read), fun split => ?_⟩
    rw [odd] at split
    exact absurd split.1 (by decide)
  · rename_i even
    have even : (String.ofList (digits text)).utf8ByteSize % 2 = 0 := by omega
    rw [bytes_eq_splitCharacter_iff even]
    exact ⟨fun split => ⟨even, split⟩, fun split => split.2⟩

/-- An ASCII text has no pair that ends inside of a character. -/
theorem not_splits_of_ascii {cs : List Char} (ascii : ∀ c ∈ cs, c.utf8Size = 1) : ¬ Splits cs := by
  match cs with
  | [] => exact id
  | [c] =>
    have first := ascii c (by simp)
    simp [Splits, first]
  | c :: d :: cs =>
    have first := ascii c (by simp)
    have second := ascii d (by simp)
    simp [Splits, first, second]

theorem parse_ne_splitCharacter (ascii : ∀ c ∈ digits text, c.utf8Size = 1) :
    parse text ≠ .error .splitCharacter := by
  intro split
  obtain ⟨-, read, bs, rest, e, -, s⟩ := parse_eq_splitCharacter_iff.1 split
  exact not_splits_of_ascii (fun c hc => ascii c (e ▸ List.mem_append_right read hc)) s

/-- **Hex dumps are read, and little else.** Let `d` be a text without its blanks and commas and
without one `0x` in front. It spells bytes if it is an even number of digits of either case. Unless
there is a plus sign in it, the text is read as some bytes exactly if `d` spells them; a plus sign is
also read in front of a single digit. Every other text is refused, and with an error if it is ASCII: a
pair of its UTF-8 bytes has to end inside of a character, behind a part that is accepted, for reading
to break down. Whatever spells bytes, with blanks and commas anywhere in it and with `0x` in front or
not, is read as these bytes. -/
theorem hex_dumps_read (text : String) :
    let d := digits text
    ((∃ bs, Spells d bs) ↔ d.length % 2 = 0 ∧ ∀ c ∈ d, c ∈ "0123456789abcdefABCDEF".toList) ∧
    ('+' ∉ d → ∀ bs, parse text = .ok bs ↔ Spells d bs) ∧
    (∀ bs, parse text = .ok bs ↔ Accepts d bs) ∧
    ((∀ c ∈ d, c.utf8Size = 1) → (∃ bs, Accepts d bs) ∨
      ∃ e, parse text = .error e ∧ e ≠ .splitCharacter) ∧
    (parse text = .error .splitCharacter ↔ (String.ofList d).utf8ByteSize % 2 = 0 ∧
      ∃ read bs rest, d = read ++ rest ∧ Accepts read bs ∧ Splits rest) ∧
    ∀ bs, Spells (kept text) bs ∨ (∃ cs, kept text = '0' :: 'x' :: cs ∧ Spells cs bs) →
      parse text = .ok bs := by
  refine ⟨exists_spells_iff, fun unsigned bs => ?_, fun bs => parse_eq_ok_iff, fun ascii => ?_,
    parse_eq_splitCharacter_iff, fun bs spelled => ?_⟩
  · rw [parse_eq_ok_iff, spells_iff_accepts unsigned]
  · cases read : parse text with
    | ok bs => exact .inl ⟨bs, parse_eq_ok_iff.1 read⟩
    | error e => exact .inr ⟨e, rfl, fun split => parse_ne_splitCharacter ascii (split ▸ read)⟩
  · rw [parse_eq_ok_iff]
    rcases spelled with s | ⟨cs, e, s⟩
    · rw [digits_of_spells s]
      exact s.accepts
    · rw [digits_eq, e]
      exact s.accepts

/-- Two texts that spell no bytes. The first has a plus sign and is read all the same; the second has
a letter of two bytes behind its first digit. -/
theorem hex_dumps_misread :
    parse "+f" = .ok [15] ∧ (¬ ∃ bs, Spells (digits "+f") bs) ∧
      parse "0é0" = .error .splitCharacter ∧ ¬ ∃ bs, Spells (digits "0é0") bs := by
  have plus : digits "+f" = ['+', 'f'] := by decide +kernel
  have wide : digits "0é0" = ['0', 'é', '0'] := by decide +kernel
  refine ⟨parse_eq_ok_iff.2 ?_, ?_, parse_eq_splitCharacter_iff.2 ⟨by decide +kernel, ?_⟩, ?_⟩
  · rw [plus]
    exact .plus rfl .nil
  · rw [exists_spells_iff, plus]
    exact fun ⟨_, all⟩ => absurd (all '+' (by decide)) (by decide +kernel)
  · rw [wide]
    exact ⟨[], [], _, rfl, .nil, .inr (by decide)⟩
  · rw [exists_spells_iff, wide]
    exact fun ⟨even, _⟩ => absurd even (by decide)

end Text

end Hex

end Speculation
