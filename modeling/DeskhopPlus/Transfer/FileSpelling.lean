import DeskhopPlus.Transfer.FileGrammar

/-!
# Spellings of a file list

What the encoder writes is a list of the grammar without blanks, and the decoder gives back the
cleaned names and the sizes. It refuses what the encoder wrote where cleaning left a name that is
not clean. A list has a spelling for each number of zeros in front of its sizes, and no others but
for blanks.
-/

namespace DeskhopPlus.Transfer

open Tokens Wire Utf8

/-! ## Digits -/

theorem decimalFrom_append (value : Nat) (left right : List UInt8) :
    decimalFrom value (left ++ right) = decimalFrom (decimalFrom value left) right :=
  List.foldl_append

theorem decimal_append_digit (digits : List UInt8) (digit : UInt8) :
    decimal (digits ++ [digit]) = decimal digits * 10 + (digit.toNat - 0x30) :=
  decimalFrom_append 0 digits [digit]

/-- The digit of a number below ten. -/
theorem digit_of_lt {number : Nat} (h : number < 10) :
    isDigit (UInt8.ofNat (0x30 + number)) = true ∧
      (UInt8.ofNat (0x30 + number)).toNat - 0x30 = number := by
  have hall : ∀ number : Fin 10, isDigit (UInt8.ofNat (0x30 + number)) = true ∧
      (UInt8.ofNat (0x30 + number)).toNat - 0x30 = number := by decide
  exact hall ⟨number, h⟩

/-- The digits written spell the number, and there are some. -/
theorem digitsWithin_spell {room value : Nat} (hroom : value < 10 ^ room) (hpos : 0 < room) :
    digitsWithin room value ≠ [] ∧ (∀ byte ∈ digitsWithin room value, isDigit byte = true) ∧
      decimal (digitsWithin room value) = value := by
  induction room generalizing value with
  | zero => cases hpos
  | succ room ih =>
      obtain ⟨hdigit, hvalue⟩ := digit_of_lt (Nat.mod_lt value (by decide : 0 < 10))
      rw [digitsWithin]
      split
      · next hlast =>
          refine ⟨List.cons_ne_nil _ _, List.forall_mem_singleton.mpr hdigit, ?_⟩
          have hone := decimal_append_digit [] (UInt8.ofNat (0x30 + value % 10))
          rw [List.nil_append, hvalue] at hone
          rw [hone, show decimal [] = 0 from rfl]
          omega
      · next hmore =>
          have hrest : value / 10 < 10 ^ room := by
            rw [Nat.pow_succ] at hroom
            omega
          have hsome : 0 < room := by
            rcases Nat.eq_zero_or_pos room with rfl | hsome
            · rw [Nat.pow_zero] at hrest
              omega
            · exact hsome
          obtain ⟨_, hdigits, hnumber⟩ := ih hrest hsome
          refine ⟨by simp, ?_, ?_⟩
          · exact List.forall_mem_append.mpr ⟨hdigits, List.forall_mem_singleton.mpr hdigit⟩
          · rw [decimal_append_digit, hnumber, hvalue]
            omega

theorem sizeDigits_spell (size : UInt64) :
    sizeDigits size ≠ [] ∧ (∀ byte ∈ sizeDigits size, isDigit byte = true) ∧
      decimal (sizeDigits size) = size.toNat :=
  digitsWithin_spell (Nat.lt_trans size.toNat_lt (by decide)) (by decide)

/-! ## What the encoder writes -/

/-- The name that goes on the wire. -/
def cleanedName (name : List UInt8) : List UInt8 :=
  (fileNameClean name (fileNameMax + 1)).getD fileNameFallback

theorem fileNameClean_cleanedName (name : List UInt8) :
    fileNameClean name (fileNameMax + 1) = some (cleanedName name) := by
  obtain ⟨out, hout⟩ := fileNameClean_some name (Nat.lt_succ_self fileNameMax)
  rw [cleanedName, hout]
  rfl

/-- The object an entry is written as. -/
def FileEntry.spelled (entry : FileEntry) : Spelled :=
  ⟨cleanedName entry.name, sizeDigits entry.size⟩

theorem FileEntry.spelled_legible (entry : FileEntry) : entry.spelled.Legible := by
  obtain ⟨_, hlength, hallowed, _⟩ := fileNameClean_bytes (fileNameClean_cleanedName entry.name)
  obtain ⟨hsome, hdigits, hvalue⟩ := sizeDigits_spell entry.size
  refine ⟨fun byte hbyte ↦ ?_, hlength, hsome, hdigits, ?_⟩
  · have hbyte := hallowed byte hbyte
    constructor
    · rintro rfl
      cases hbyte
    · rintro rfl
      cases hbyte
  · show decimal (sizeDigits entry.size) < 2 ^ 64
    rw [hvalue]
    exact entry.size.toNat_lt

/-- What an entry is read as once it was written. -/
theorem FileEntry.spelled_entry (entry : FileEntry) :
    entry.spelled.entry = ⟨cleanedName entry.name, entry.size⟩ := by
  obtain ⟨_, _, hvalue⟩ := sizeDigits_spell entry.size
  rw [Spelled.entry, FileEntry.spelled]
  dsimp only
  rw [hvalue, UInt64.ofNat_toNat]

variable {cap : Nat} {out text bytes : List UInt8}

theorem put_some (h : put cap out text = some bytes) : bytes = out ++ text := by
  rw [put] at h
  split at h
  · cases h
  · exact (Option.some.inj h).symm

theorem putEntry_some {first : Bool} {entry : FileEntry}
    (h : putEntry cap out first entry = some bytes) :
    bytes = out ++ ((if first then [] else [[comma]]) ++ entry.spelled.tokens).flatten := by
  rw [putEntry] at h
  simp only [Option.bind_eq_bind, Option.bind_eq_some_iff, fileNameClean_cleanedName,
    Option.some.injEq, exists_eq_left'] at h
  obtain ⟨text₁, hcomma, text₂, hkey, text₃, hname, text₄, hmiddle, text₅, hdigits, hclose⟩ := h
  have hfirst : text₁ = out ++ (if first then [] else [comma]) := by
    cases first with
    | true => rw [← Option.some.inj hcomma, if_pos rfl, List.append_nil]
    | false => exact put_some hcomma
  rw [put_some hclose, put_some hdigits, put_some hmiddle, put_some hname, put_some hkey, hfirst]
  cases first <;> simp [FileEntry.spelled, Spelled.tokens]

theorem putEntries_some {first : Bool} {entries : List FileEntry}
    (h : putEntries cap out first entries = some text) :
    text ++ [closeBracket] =
      out ++ (itemTokens first (entries.map FileEntry.spelled)).flatten := by
  induction entries generalizing out first with
  | nil =>
      rw [putEntries, Option.some.injEq] at h
      rw [← h]
      rfl
  | cons entry rest ih =>
      rw [putEntries, Option.bind_eq_bind, Option.bind_eq_some_iff] at h
      obtain ⟨next, hentry, hrest⟩ := h
      rw [ih hrest, putEntry_some hentry, List.map_cons, itemTokens, ← List.append_assoc,
        List.append_assoc, List.flatten_append, List.flatten_append, List.flatten_append,
        List.append_assoc]

/-- What the encoder writes is a list of objects without blanks. -/
theorem fileListEncode_some {entries : List FileEntry}
    (h : fileListEncode entries cap = some bytes) :
    entries ≠ [] ∧ entries.length ≤ fileListMax ∧
      bytes = (listTokens (entries.map FileEntry.spelled)).flatten := by
  rw [fileListEncode] at h
  split at h
  · cases h
  next hcount =>
    simp only [Option.bind_eq_bind, Option.bind_eq_some_iff] at h
    obtain ⟨text₁, hopen, text₂, hentries, hclose⟩ := h
    refine ⟨?_, by omega, ?_⟩
    · rintro rfl
      exact hcount (.inl rfl)
    · rw [put_some hclose, putEntries_some hentries, put_some hopen]
      rfl

/-- Decoding what was encoded gives the cleaned names and the sizes when the names are clean and the
sizes add up to 64 bits, and otherwise it is refused. -/
theorem fileListDecode_encoded {entries : List FileEntry}
    (h : fileListEncode entries cap = some bytes) :
    fileListDecode bytes =
      if (∀ entry ∈ entries, fileNameIsClean (cleanedName entry.name) = true) ∧
          sizeSum entries ≤ uint64Max then
        .ok ⟨entries.map fun entry ↦ ⟨cleanedName entry.name, entry.size⟩,
          UInt64.ofNat (sizeSum entries)⟩
      else .error .refused := by
  obtain ⟨hsome, hcount, rfl⟩ := fileListEncode_some h
  have hspaced : Spaced isSpace (listTokens (entries.map FileEntry.spelled))
      (listTokens (entries.map FileEntry.spelled)).flatten := by
    have hleads := @leads_flatten _ isSpace (listTokens (entries.map FileEntry.spelled)) []
    rw [List.append_nil] at hleads
    exact ⟨[], hleads, List.forall_mem_nil _⟩
  have hentries : (entries.map FileEntry.spelled).map Spelled.entry =
      entries.map fun entry ↦ ⟨cleanedName entry.name, entry.size⟩ := by
    rw [List.map_map]
    exact List.map_congr_left fun entry _ ↦ entry.spelled_entry
  have hsum : sizeSum ((entries.map FileEntry.spelled).map Spelled.entry) = sizeSum entries := by
    rw [hentries, sizeSum, List.map_map]
    rfl
  have hlegible : ∀ item ∈ entries.map FileEntry.spelled, item.Legible :=
    List.forall_mem_map.mpr fun entry _ ↦ entry.spelled_legible
  rw [fileListDecode_spaced hspaced (by simpa using hsome) hlegible, hsum, Nat.zero_add]
  refine if_congr ?_ ?_ rfl
  · rw [List.forall_mem_map, List.length_map]
    exact and_congr_right fun _ ↦ and_iff_right hcount
  · rw [Spelled.list, hsum, hentries]

/-! ## Zeros in front of a number -/

/-- The digit zero. -/
def zeroDigit : UInt8 := 0x30

/-- How many zeros stand in front of a number. -/
def leadingZeros (digits : List UInt8) : Nat := (digits.takeWhile (· == zeroDigit)).length

/-- Zeros in front do not count. -/
theorem decimal_zeros (count : Nat) (digits : List UInt8) :
    decimal (List.replicate count zeroDigit ++ digits) = decimal digits := by
  induction count with
  | zero => rfl
  | succ count ih =>
      rw [List.replicate_succ, List.cons_append, decimal, decimalFrom_cons]
      exact ih

set_option maxRecDepth 4096 in
/-- A number with a digit in front that is no zero is not zero. -/
theorem decimal_pos {digit : UInt8} (hdigit : isDigit digit = true) (hzero : digit ≠ zeroDigit)
    (digits : List UInt8) : 0 < decimal (digit :: digits) := by
  have hle := le_decimalFrom (0 * 10 + (digit.toNat - 0x30)) digits
  have hpos := forall_byte
    (fun byte ↦ isDigit byte = true → byte ≠ zeroDigit → 0 < byte.toNat - 0x30)
    (by decide) digit hdigit hzero
  rw [decimal, decimalFrom_cons]
  omega

/-- With no zero in front only no digits at all spell zero. -/
theorem eq_nil_of_decimal_zero {digits : List UInt8}
    (hdigits : ∀ byte ∈ digits, isDigit byte = true)
    (hhead : digits.head? ≠ some zeroDigit) (h : decimal digits = 0) : digits = [] := by
  cases digits with
  | nil => rfl
  | cons digit digits =>
      have hpos := decimal_pos (hdigits digit (.head _)) (fun heq ↦ hhead (by rw [heq]; rfl)) digits
      omega

/-- A digit is known from its value. -/
theorem digit_inj {left right : UInt8} (hleft : isDigit left = true) (hright : isDigit right = true)
    (h : left.toNat - 0x30 = right.toNat - 0x30) : left = right := by
  rw [isDigit, Bool.and_eq_true, decide_eq_true_iff, decide_eq_true_iff,
    UInt8.le_iff_toNat_le, UInt8.le_iff_toNat_le] at hleft hright
  apply UInt8.toNat.inj
  have hlow : (0x30 : UInt8).toNat = 0x30 := rfl
  omega

/-- Digits with no zero in front are those of their number. -/
theorem digits_eq_of_decimal {left right : List UInt8} (hleft : ∀ byte ∈ left, isDigit byte = true)
    (hright : ∀ byte ∈ right, isDigit byte = true) (hl : left.head? ≠ some zeroDigit)
    (hr : right.head? ≠ some zeroDigit) (h : decimal left = decimal right) : left = right := by
  induction left using List.reverseRecOn generalizing right with
  | nil => exact (eq_nil_of_decimal_zero hright hr h.symm).symm
  | append_singleton left last ih =>
      rcases List.eq_nil_or_concat' right with rfl | ⟨init, digit, rfl⟩
      · exact eq_nil_of_decimal_zero hleft hl h
      obtain ⟨hinit, hlast⟩ := List.forall_mem_append.mp hleft
      obtain ⟨hinit', hdigit⟩ := List.forall_mem_append.mp hright
      have hlast := hlast last (.head _)
      have hdigit := hdigit digit (.head _)
      rw [decimal_append_digit, decimal_append_digit] at h
      have hnine := digit_le hlast
      have hnine' := digit_le hdigit
      have hhead {digits : List UInt8} {other : UInt8}
          (hne : (digits ++ [other]).head? ≠ some zeroDigit) : digits.head? ≠ some zeroDigit := by
        cases digits with
        | nil => nofun
        | cons first rest => exact hne
      rw [ih hinit hinit' (hhead hl) (hhead hr) (by omega),
        digit_inj hlast hdigit (by omega)]

/-- Digits are those of their number with as many zeros in front. -/
theorem digits_eq {left right : List UInt8} (hleft : ∀ byte ∈ left, isDigit byte = true)
    (hright : ∀ byte ∈ right, isDigit byte = true) (hzeros : leadingZeros left = leadingZeros right)
    (h : decimal left = decimal right) : left = right := by
  have hsplit (digits : List UInt8) : digits =
      List.replicate (leadingZeros digits) zeroDigit ++ digits.dropWhile (· == zeroDigit) := by
    have htake : digits.takeWhile (· == zeroDigit) =
        List.replicate (leadingZeros digits) zeroDigit := by
      refine List.eq_replicate_length.mpr fun byte hbyte ↦ ?_
      have hzero := List.mem_takeWhile_imp hbyte
      exact eq_of_beq hzero
    rw [← htake, List.takeWhile_append_dropWhile]
  have hhead (digits : List UInt8) :
      (digits.dropWhile (· == zeroDigit)).head? ≠ some zeroDigit := by
    intro hsome
    have hnot := List.head?_dropWhile_not (· == zeroDigit) digits
    rw [hsome] at hnot
    exact absurd hnot (by decide)
  have hmem {digits : List UInt8} (hdigits : ∀ byte ∈ digits, isDigit byte = true) :
      ∀ byte ∈ digits.dropWhile (· == zeroDigit), isDigit byte = true :=
    fun byte hbyte ↦ hdigits byte (List.dropWhile_suffix _ |>.subset hbyte)
  have hvalue (digits : List UInt8) :
      decimal (digits.dropWhile (· == zeroDigit)) = decimal digits := by
    rw [hsplit digits, decimal_zeros, ← hsplit digits]
  have hrest : left.dropWhile (· == zeroDigit) = right.dropWhile (· == zeroDigit) :=
    digits_eq_of_decimal (hmem hleft) (hmem hright) (hhead left) (hhead right)
      (by rw [hvalue, hvalue, h])
  rw [hsplit left, hzeros, hrest, ← hsplit right]

/-! ## Blanks -/

theorem quote_not_space : isSpace quote = false := rfl

set_option maxRecDepth 2048 in
/-- Squeezing leaves the tokens of an object as they are. -/
theorem tokens_whole {item : Spelled} (hitem : item.Legible) :
    ∀ token ∈ item.tokens, Whole isSpace quote token := by
  have hkey : Whole isSpace quote nameKey ∧ Whole isSpace quote sizeKey :=
    ⟨whole_string (by decide : ∀ byte ∈ ascii ['n', 'a', 'm', 'e'], byte ≠ quote),
      whole_string (by decide : ∀ byte ∈ ascii ['s', 'i', 'z', 'e'], byte ≠ quote)⟩
  have hdigits : Whole isSpace quote item.digits := by
    refine whole_plain fun byte hbyte ↦ ?_
    have hdigit := hitem.digits_only byte hbyte
    refine ⟨?_, digit_not_space hdigit⟩
    rintro rfl
    cases hdigit
  simp only [Spelled.tokens, List.forall_mem_cons]
  exact ⟨whole_plain (by decide), hkey.1, whole_plain (by decide),
    whole_string fun byte hbyte ↦ (hitem.plain byte hbyte).1, whole_plain (by decide), hkey.2,
    whole_plain (by decide), hdigits, whole_plain (by decide), List.forall_mem_nil _⟩

set_option maxRecDepth 2048 in
theorem itemTokens_whole (first : Bool) {items : List Spelled}
    (hitems : ∀ item ∈ items, item.Legible) :
    ∀ token ∈ itemTokens first items, Whole isSpace quote token := by
  induction items generalizing first with
  | nil => exact List.forall_mem_singleton.mpr (whole_plain (by decide))
  | cons item items ih =>
      obtain ⟨hitem, hrest⟩ := List.forall_mem_cons.mp hitems
      rw [itemTokens]
      refine List.forall_mem_append.mpr
        ⟨?_, List.forall_mem_append.mpr ⟨tokens_whole hitem, ih false hrest⟩⟩
      cases first with
      | true => exact List.forall_mem_nil _
      | false => exact List.forall_mem_singleton.mpr (whole_plain (by decide))

set_option maxRecDepth 2048 in
/-- A list without its blanks is its tokens. -/
theorem IsFileList.squeezed {json : List UInt8} {items : List Spelled} (h : IsFileList json items) :
    squeeze isSpace quote false json = (listTokens items).flatten := by
  refine squeeze_spaced quote_not_space ?_ h.spaced
  exact List.forall_mem_cons.mpr ⟨whole_plain (by decide), itemTokens_whole true h.legible⟩

/-- The bytes of an object up to the digits of its size. -/
def lead (first : Bool) (name : List UInt8) : List UInt8 :=
  (if first then [] else [comma]) ++ (openBrace :: nameKey ++ [colon, quote] ++ name) ++
    ([quote, comma] ++ sizeKey ++ [colon])

theorem itemTokens_flatten (first : Bool) (item : Spelled) (items : List Spelled) :
    (itemTokens first (item :: items)).flatten =
      lead first item.name ++ (item.digits ++ closeBrace :: (itemTokens false items).flatten) := by
  cases first <;> simp [itemTokens, Spelled.tokens, lead]

/-- Objects of the same names are known from their tokens without blanks. -/
theorem items_eq_of_tokens (first : Bool) {items others : List Spelled}
    (hitems : ∀ item ∈ items, item.Legible) (hothers : ∀ item ∈ others, item.Legible)
    (hnames : items.map Spelled.name = others.map Spelled.name)
    (h : (itemTokens first items).flatten = (itemTokens first others).flatten) :
    items = others := by
  induction items generalizing first others with
  | nil =>
      rw [List.map_nil, eq_comm, List.map_eq_nil_iff] at hnames
      exact hnames.symm
  | cons item items ih =>
      cases others with
      | nil => cases hnames
      | cons other others =>
          rw [List.map_cons, List.map_cons, List.cons.injEq] at hnames
          obtain ⟨hitem, hrest⟩ := List.forall_mem_cons.mp hitems
          obtain ⟨hother, hrest'⟩ := List.forall_mem_cons.mp hothers
          rw [itemTokens_flatten, itemTokens_flatten, hnames.1, List.append_cancel_left_eq] at h
          have htake {item : Spelled} (hitem : item.Legible) (rest : List UInt8) :
              (item.digits ++ closeBrace :: rest).takeWhile isDigit = item.digits := by
            rw [List.takeWhile_append_of_pos hitem.digits_only,
              List.takeWhile_cons_of_neg (by decide), List.append_nil]
          have hdigits : item.digits = other.digits := by
            rw [← htake hitem (itemTokens false items).flatten, h, htake hother]
          rw [hdigits, List.append_cancel_left_eq, List.cons.injEq] at h
          have hsame : item = other := by
            cases item
            cases other
            exact congrArg₂ Spelled.mk hnames.1 hdigits
          rw [hsame, ih false hrest hrest' hnames.2 h.2]

/-- Objects are known from their names, their sizes and the zeros in front of these. -/
theorem items_eq_of_zeros {items others : List Spelled} (hitems : ∀ item ∈ items, item.Legible)
    (hothers : ∀ item ∈ others, item.Legible)
    (hnames : items.map Spelled.name = others.map Spelled.name)
    (hsizes : items.map (fun item ↦ decimal item.digits) =
      others.map fun item ↦ decimal item.digits)
    (hzeros : items.map (fun item ↦ leadingZeros item.digits) =
      others.map fun item ↦ leadingZeros item.digits) : items = others := by
  induction items generalizing others with
  | nil =>
      rw [List.map_nil, eq_comm, List.map_eq_nil_iff] at hnames
      exact hnames.symm
  | cons item items ih =>
      cases others with
      | nil => cases hnames
      | cons other others =>
          rw [List.map_cons, List.map_cons, List.cons.injEq] at hnames hsizes hzeros
          obtain ⟨hitem, hrest⟩ := List.forall_mem_cons.mp hitems
          obtain ⟨hother, hrest'⟩ := List.forall_mem_cons.mp hothers
          have hdigits := digits_eq hitem.digits_only hother.digits_only hzeros.1 hsizes.1
          have hsame : item = other := by
            cases item
            cases other
            exact congrArg₂ Spelled.mk hnames.1 hdigits
          rw [hsame, ih hrest hrest' hnames.2 hsizes.2 hzeros.2]

/-- Lists that are read alike are spelled alike but for blanks where the same numbers of zeros stand
in front of their sizes. -/
theorem squeezed_eq_iff {json json' : List UInt8} {items others : List Spelled}
    (h : IsFileList json items) (h' : IsFileList json' others)
    (hsame : Spelled.list items = Spelled.list others) :
    squeeze isSpace quote false json = squeeze isSpace quote false json' ↔
      items.map (fun item ↦ leadingZeros item.digits) =
        others.map fun item ↦ leadingZeros item.digits := by
  have hentries : items.map Spelled.entry = others.map Spelled.entry :=
    congrArg FileList.entries hsame
  have hnames : items.map Spelled.name = others.map Spelled.name := by
    have := congrArg (List.map FileEntry.name) hentries
    rw [List.map_map, List.map_map] at this
    exact this
  have hsizes : items.map (fun item ↦ decimal item.digits) =
      others.map fun item ↦ decimal item.digits := by
    have := congrArg (List.map fun entry ↦ entry.size.toNat) hentries
    rw [List.map_map, List.map_map] at this
    have hnumber {items : List Spelled} (hitems : ∀ item ∈ items, item.Legible) :
        items.map (fun item ↦ decimal item.digits) =
          items.map ((fun entry ↦ entry.size.toNat) ∘ Spelled.entry) :=
      List.map_congr_left fun item hitem ↦
        (UInt64.toNat_ofNat_of_lt' (hitems item hitem).size_lt).symm
    rw [hnumber h.legible, this, ← hnumber h'.legible]
  rw [h.squeezed, h'.squeezed]
  constructor
  · intro htokens
    rw [listTokens, listTokens, List.flatten_cons, List.flatten_cons,
      List.append_cancel_left_eq] at htokens
    rw [items_eq_of_tokens true h.legible h'.legible hnames htokens]
  · intro hzeros
    rw [items_eq_of_zeros h.legible h'.legible hnames hsizes hzeros]

/-! ## The codec -/

/-- Decoding accepts the lists of the grammar and no others, gives their names and sizes with the
sum of the sizes, and stays within the text. It gives back what was encoded, the names cleaned,
where these are clean and the sizes add up to 64 bits. -/
theorem fileList_grammar :
    (∀ (json : List UInt8) (list : FileList), fileListDecode json = .ok list ↔
      ∃ items, IsFileList json items ∧ list.entries = items.map Spelled.entry ∧
        list.total.toNat = sizeSum list.entries) ∧
    (∀ json : List UInt8, fileListDecode json ≠ .error .outside) ∧
    ∀ (entries : List FileEntry) (cap : Nat) (bytes : List UInt8),
      fileListEncode entries cap = some bytes →
      (∀ entry ∈ entries, fileNameIsClean (cleanedName entry.name) = true) →
      sizeSum entries < 2 ^ 64 →
        ∃ list, fileListDecode bytes = .ok list ∧
          list.entries = entries.map fun entry ↦ ⟨cleanedName entry.name, entry.size⟩ := by
  refine ⟨fun json list ↦ ?_, fileListDecode_inside, fun entries cap bytes h hclean hsum ↦ ?_⟩
  · rw [fileListDecode_iff]
    refine exists_congr fun items ↦ and_congr_right fun hitems ↦ ?_
    have htotal : (Spelled.list items).total.toNat = sizeSum (items.map Spelled.entry) :=
      UInt64.toNat_ofNat_of_lt' hitems.total_lt
    constructor
    · rintro rfl
      exact ⟨rfl, htotal⟩
    · rintro ⟨hentries, hsum⟩
      cases list
      dsimp only at hentries hsum
      rw [hentries, ← htotal] at hsum
      exact congrArg₂ FileList.mk hentries (UInt64.toNat.inj hsum)
  · rw [fileListDecode_encoded h, if_pos ⟨hclean, Nat.le_sub_one_of_lt hsum⟩]
    exact ⟨_, rfl, rfl⟩

/-- Two files with more bytes between them than 64 bits count. -/
def overlongFiles : List FileEntry := [⟨[0x61], 0xFFFFFFFFFFFFFFFF⟩, ⟨[0x62], 1⟩]

/-- They are encoded with clean names, and the list is refused. -/
theorem overlong_total_refused :
    ¬∀ (entries : List FileEntry) (cap : Nat) (bytes : List UInt8),
      fileListEncode entries cap = some bytes →
      (∀ entry ∈ entries, fileNameIsClean (cleanedName entry.name) = true) →
        ∃ list, fileListDecode bytes = .ok list ∧
          list.entries = entries.map fun entry ↦ ⟨cleanedName entry.name, entry.size⟩ := by
  intro h
  obtain ⟨list, hlist, _⟩ := h overlongFiles fileListEncodeMax
    ((fileListEncode overlongFiles fileListEncodeMax).getD []) (by decide)
    (by decide)
  have hrefused : fileListDecode ((fileListEncode overlongFiles fileListEncodeMax).getD []) =
      .error .refused := by decide
  rw [hrefused] at hlist
  cases hlist

/-- Cleaning gives a clean name of whole characters, and what was encoded is accepted, for the names
of which the last character does not stand behind a dot or a space in this way and for no others. -/
theorem cleaned_names_accepted (cap : Nat) :
    (∀ name out : List UInt8, fileNameClean name cap = some out →
      ((fileNameIsClean out = true ∧ out.length ≤ fileNameMax ∧
          (∀ byte ∈ out, byteIsForbidden byte = false) ∧ stemIsReservedDevice out = false ∧
          (∀ last, out.getLast? = some last → isTail last = false) ∧ (Spells name → Spells out)) ↔
        ¬LastBehindTail name)) ∧
    (∀ name : List UInt8, fileNameMax < cap → ∃ out, fileNameClean name cap = some out) ∧
    ∀ (entries : List FileEntry) (bytes : List UInt8),
      fileListEncode entries cap = some bytes → sizeSum entries < 2 ^ 64 →
        ((∃ list, fileListDecode bytes = .ok list) ↔
          ∀ entry ∈ entries, ¬LastBehindTail entry.name) := by
  refine ⟨fun name out h ↦ ?_, fun name ↦ fileNameClean_some name,
    fun entries bytes h hsum ↦ ?_⟩
  · rw [← fileNameIsClean_cleaned h]
    constructor
    · exact fun hall ↦ hall.1
    · intro hclean
      have hname := fileNameIsClean_iff.mp hclean
      exact ⟨hclean, hname.length_le, hname.allowed, hname.not_device, hname.end_kept,
        fileNameClean_spells h⟩
  · rw [fileListDecode_encoded h]
    have hiff : (∀ entry ∈ entries, fileNameIsClean (cleanedName entry.name) = true) ↔
        ∀ entry ∈ entries, ¬LastBehindTail entry.name :=
      forall_congr' fun entry ↦ imp_congr_right fun _ ↦
        fileNameIsClean_cleaned (fileNameClean_cleanedName entry.name)
    rw [← hiff]
    constructor
    · rintro ⟨list, hlist⟩
      split at hlist
      · next hboth => exact hboth.1
      · cases hlist
    · intro hclean
      rw [if_pos ⟨hclean, Nat.le_sub_one_of_lt hsum⟩]
      exact ⟨_, rfl⟩

/-- The name of a device in 255 bytes whose last but one is a dot. -/
def deviceNameBehindDot : List UInt8 :=
  ascii ['N', 'U', 'L', '.'] ++ List.replicate 249 0x61 ++ [dot, 0x61]

set_option maxRecDepth 4096 in
/-- Its cleaned name ends in that dot, is not clean, and is refused in a list. -/
theorem device_name_refused :
    ∃ out bytes, fileNameClean deviceNameBehindDot (fileNameMax + 1) = some out ∧
      out.getLast? = some dot ∧ fileNameIsClean out = false ∧
      fileListEncode [⟨deviceNameBehindDot, 0⟩] fileListEncodeMax = some bytes ∧
      fileListDecode bytes = .error .refused := by
  refine ⟨underscore :: deviceNameBehindDot.take 254,
    (fileListEncode [⟨deviceNameBehindDot, 0⟩] fileListEncodeMax).getD [], ?_⟩
  decide

/-- Two accepted texts that are read alike are the same without the blanks outside strings exactly
when corresponding sizes have the same number of zeros in front. -/
theorem spelling_unique_iff {json json' : List UInt8} {list : FileList}
    (h : fileListDecode json = .ok list) (h' : fileListDecode json' = .ok list) :
    (∃ items, IsFileList json items) ∧ (∃ others, IsFileList json' others) ∧
      ∀ items others, IsFileList json items → IsFileList json' others →
        (squeeze isSpace quote false json = squeeze isSpace quote false json' ↔
          items.map (fun item ↦ leadingZeros item.digits) =
            others.map fun item ↦ leadingZeros item.digits) := by
  obtain ⟨items₁, hitems₁, _⟩ := fileListDecode_iff.mp h
  obtain ⟨items₂, hitems₂, _⟩ := fileListDecode_iff.mp h'
  refine ⟨⟨items₁, hitems₁⟩, ⟨items₂, hitems₂⟩, fun items others hitems hothers ↦ ?_⟩
  apply squeezed_eq_iff hitems hothers
  have hleft := fileListDecode_iff.mpr ⟨items, hitems, rfl⟩
  have hright := fileListDecode_iff.mpr ⟨others, hothers, rfl⟩
  rw [h] at hleft
  rw [h'] at hright
  exact (Except.ok.inj hleft).symm.trans (Except.ok.inj hright)

/-- The list of one file of the name `a` and seven bytes, with some zeros in front of the size. -/
def spelledSeven (zeros : List UInt8) (gap : List UInt8) : List UInt8 :=
  openBracket :: gap ++ openBrace :: nameKey ++ [colon, quote, 0x61, quote, comma] ++ sizeKey ++
    [colon] ++ zeros ++ [0x37, closeBrace, closeBracket]

/-- The number with and without a zero in front is read alike. -/
theorem zero_in_front_accepted :
    ∃ list, fileListDecode (spelledSeven [] []) = .ok list ∧
      fileListDecode (spelledSeven [zeroDigit] []) = .ok list ∧
      squeeze isSpace quote false (spelledSeven [] []) ≠
        squeeze isSpace quote false (spelledSeven [zeroDigit] []) := by
  refine ⟨⟨[⟨[0x61], 7⟩], 7⟩, ?_⟩
  decide

/-- Two texts that differ in a blank. -/
theorem spelling_unique_blank :
    fileListDecode (spelledSeven [] []) = .ok ⟨[⟨[0x61], 7⟩], 7⟩ ∧
      fileListDecode (spelledSeven [] [0x20]) = .ok ⟨[⟨[0x61], 7⟩], 7⟩ ∧
      ∃ items, IsFileList (spelledSeven [] []) items := by
  have h : fileListDecode (spelledSeven [] []) = .ok ⟨[⟨[0x61], 7⟩], 7⟩ := by decide
  have h' : fileListDecode (spelledSeven [] [0x20]) = .ok ⟨[⟨[0x61], 7⟩], 7⟩ := by decide
  exact ⟨h, h', (spelling_unique_iff h h').1⟩

end DeskhopPlus.Transfer
