import AutoImport.Proofs.Glob.Pattern

/-!
# Patterns and the files below a directory

A pattern that fits a directory fits the files below it when `/**` is put behind it, unless it ends with
`**/`: then a file would need an empty segment.
-/

namespace AutoImport.Glob

open Text

/-! ## One token -/

namespace Token

/-- Whether a token stands for any number of characters. -/
def isStretch : Token → Bool
  | .anyRun | .anySegments => true
  | _ => false

theorem anyRun_fits_iff {next : List Char → Bool} {path : List Char} :
    Token.anyRun.fits next path = true ↔
      ∃ run rest, path = run ++ rest ∧ '/' ∉ run ∧ next rest = true := by
  rw [fits]
  induction path with
  | nil => simp [Pattern.runThen]
  | cons c path ih =>
      rw [Pattern.runThen, Bool.or_eq_true, Bool.and_eq_true, bne_iff_ne, ih]
      constructor
      · rintro (here | ⟨other, run, rest, rfl, plain, later⟩)
        · exact ⟨[], c :: path, rfl, by simp, here⟩
        · exact ⟨c :: run, rest, rfl, by simp [plain, Ne.symm other], later⟩
      · rintro ⟨run, rest, shape, plain, later⟩
        cases run with
        | nil =>
            obtain rfl : c :: path = rest := shape
            exact .inl later
        | cons d run =>
            obtain ⟨rfl, rfl⟩ := List.cons.inj shape
            simp only [List.mem_cons, not_or] at plain
            exact .inr ⟨Ne.symm plain.1, run, rest, rfl, plain.2, later⟩

theorem segmentsThen_iff {next : List Char → Bool} {path : List Char} :
    Pattern.segmentsThen next path = true ↔
      (∃ front rest, path = front ++ '/' :: rest ∧ next rest = true) ∨ next [] = true := by
  induction path with
  | nil => simp [Pattern.segmentsThen]
  | cons c path ih =>
      rw [Pattern.segmentsThen, Bool.or_eq_true, Bool.and_eq_true, beq_iff_eq, ih]
      constructor
      · rintro (⟨rfl, here⟩ | ⟨front, rest, rfl, later⟩ | ends)
        · exact .inl ⟨[], path, rfl, here⟩
        · exact .inl ⟨c :: front, rest, rfl, later⟩
        · exact .inr ends
      · rintro (⟨front, rest, shape, later⟩ | ends)
        · cases front with
          | nil =>
              obtain ⟨rfl, rfl⟩ := List.cons.inj shape
              exact .inl ⟨rfl, later⟩
          | cons d front =>
              obtain ⟨rfl, rfl⟩ := List.cons.inj shape
              exact .inr (.inl ⟨front, rest, rfl, later⟩)
        · exact .inr (.inr ends)

/-- Whole segments end where one begins, or at the end of the path. -/
theorem anySegments_fits_iff {next : List Char → Bool} {path : List Char} :
    Token.anySegments.fits next path = true ↔
      (∃ front rest, path = front ++ rest ∧ IsLead front ∧ next rest = true) ∨ next [] = true := by
  rw [fits, Bool.or_eq_true, segmentsThen_iff]
  constructor
  · rintro (here | ⟨front, rest, rfl, later⟩ | ends)
    · exact .inl ⟨[], path, rfl, .inl rfl, here⟩
    · exact .inl ⟨front ++ ['/'], rest, by simp, .inr (endsWith_iff.mpr ⟨front, rfl⟩), later⟩
    · exact .inr ends
  · rintro (⟨front, rest, rfl, rfl | lead, later⟩ | ends)
    · exact .inl later
    · rcases endsWith_iff.mp lead with ⟨before, rfl⟩
      exact .inr (.inl ⟨before, rest, by simp, later⟩)
    · exact .inr (.inr ends)

/-- The other tokens stand for one character, and for a slash only where they spell it. -/
theorem exists_char_of_fits {token : Token} {next : List Char → Bool} {path : List Char}
    (one : token.isStretch = false) (fits : token.fits next path = true) :
    ∃ c rest, path = c :: rest ∧ next rest = true ∧ (c = '/' → token = .literal '/') ∧
      ∀ other more, other more = true → token.fits other (c :: more) = true := by
  cases path with
  | nil => cases token <;> simp_all [Token.fits, isStretch]
  | cons c path =>
      refine ⟨c, path, rfl, ?_⟩
      cases token with
      | literal expected =>
          rw [Token.fits, Bool.and_eq_true, beq_iff_eq] at fits
          refine ⟨fits.2, fun slash => by rw [← fits.1, slash], fun other more later => ?_⟩
          simp [Token.fits, fits.1, later]
      | anyChar =>
          rw [Token.fits, Bool.and_eq_true, bne_iff_ne] at fits
          refine ⟨fits.2, fun slash => absurd slash fits.1, fun other more later => ?_⟩
          simp [Token.fits, fits.1, later]
      | oneOf negated ranges =>
          rw [Token.fits, Bool.and_eq_true, Bool.and_eq_true, bne_iff_ne] at fits
          refine ⟨fits.2, fun slash => absurd slash fits.1.1, fun other more later => ?_⟩
          rw [Token.fits, Bool.and_eq_true, Bool.and_eq_true, bne_iff_ne]
          exact ⟨fits.1, later⟩
      | anyRun => simp [isStretch] at one
      | anySegments => simp [isStretch] at one

/-- A stretch may be empty. -/
theorem fits_of_next {token : Token} {next : List Char → Bool} {path : List Char}
    (stretch : token.isStretch = true) (here : next path = true) : token.fits next path = true := by
  cases token with
  | anyRun => exact anyRun_fits_iff.mpr ⟨[], path, rfl, by simp, here⟩
  | anySegments => exact anySegments_fits_iff.mpr (.inl ⟨[], path, rfl, .inl rfl, here⟩)
  | _ => simp [isStretch] at stretch

/-- At the end of a path there is only room for an empty stretch. -/
theorem fits_nil_iff {token : Token} {next : List Char → Bool} :
    token.fits next [] = true ↔ token.isStretch = true ∧ next [] = true := by
  cases token <;> simp [Token.fits, isStretch, Pattern.runThen, Pattern.segmentsThen]

end Token

/-! ## Tokens in a row -/

namespace Pattern

theorem isStretch_of_fitsTokens_nil {tokens : List Token} (fits : fitsTokens tokens [] = true) :
    ∀ token ∈ tokens, token.isStretch = true := by
  induction tokens with
  | nil => simp
  | cons token tokens ih =>
      rw [fitsTokens, Token.fits_nil_iff] at fits
      exact List.forall_mem_cons.mpr ⟨fits.1, ih fits.2⟩

theorem fitsTokens_append_of_isStretch {tokens more : List Token} {path : List Char}
    (stretches : ∀ token ∈ tokens, token.isStretch = true) (fits : fitsTokens more path = true) :
    fitsTokens (tokens ++ more) path = true := by
  induction tokens with
  | nil => exact fits
  | cons token tokens ih =>
      rcases List.forall_mem_cons.mp stretches with ⟨first, rest⟩
      exact Token.fits_of_next first (ih rest)

theorem fitsTokens_anySegments (path : List Char) : fitsTokens [.anySegments] path = true :=
  Token.anySegments_fits_iff.mpr (.inr rfl)

theorem fitsTokens_anyRun {segment : List Char} (plain : '/' ∉ segment) :
    fitsTokens [.anyRun] segment = true :=
  Token.anyRun_fits_iff.mpr ⟨segment, [], by simp, plain, rfl⟩

/-- The last segment of a path. -/
theorem exists_lead_segment (path : List Char) :
    ∃ front segment, path = front ++ segment ∧ IsLead front ∧ '/' ∉ segment := by
  induction path with
  | nil => exact ⟨[], [], rfl, .inl rfl, by simp⟩
  | cons c path ih =>
      rcases ih with ⟨front, segment, rfl, rfl | lead, plain⟩
      · by_cases slash : c = '/'
        · exact ⟨['/'], segment, by simp [slash], .inr rfl, plain⟩
        · exact ⟨[], c :: segment, rfl, .inl rfl, by simp [plain, Ne.symm slash]⟩
      · rcases endsWith_iff.mp lead with ⟨before, rfl⟩
        exact ⟨c :: before ++ ['/'], segment, by simp, .inr (endsWith_iff.mpr ⟨c :: before, rfl⟩), plain⟩

/-- The end of a pattern that a path may go on under. -/
def IsOpen (tokens ending : List Token) : Prop :=
  ending = [.anySegments] ∨
    ending = [.literal '/', .anySegments] ∧ tokens.getLast? ≠ some .anySegments

theorem IsOpen.tail {token : Token} {tokens ending : List Token}
    (isOpen : IsOpen (token :: tokens) ending) :
    IsOpen tokens ending := by
  rcases isOpen with segments | ⟨slash, last⟩
  · exact .inl segments
  · refine .inr ⟨slash, ?_⟩
    cases tokens with
    | nil => simp
    | cons next tokens => rwa [List.getLast?_cons_cons] at last

/-- Stretches behind `**` of which the last is another one end with `*`. -/
theorem exists_anyRun_last {tokens : List Token} (stretches : ∀ token ∈ tokens, token.isStretch = true)
    (last : (Token.anySegments :: tokens).getLast? ≠ some .anySegments) :
    ∃ before, tokens = before ++ [.anyRun] := by
  rcases List.eq_nil_or_concat tokens with rfl | ⟨before, token, rfl⟩
  · simp at last
  · have stretch := stretches token (by simp)
    cases token with
    | anyRun => exact ⟨before, by simp⟩
    | anySegments => simp [List.getLast?_cons] at last
    | _ => simp [Token.isStretch] at stretch

/-- Where a pattern fits a path, its continuation fits what is below that path. -/
theorem fitsTokens_append {tokens ending : List Token} {path : List Char} (rest : List Char)
    (isOpen : IsOpen tokens ending) (fits : fitsTokens tokens path = true) :
    fitsTokens (tokens ++ ending) (path ++ '/' :: rest) = true := by
  induction tokens generalizing path with
  | nil =>
      obtain rfl : path = [] := by simpa [fitsTokens] using fits
      rcases isOpen with rfl | ⟨rfl, -⟩
      · exact fitsTokens_anySegments _
      · simp only [List.nil_append, fitsTokens, Token.fits, beq_self_eq_true, Bool.true_and]
        exact fitsTokens_anySegments rest
  | cons token tokens ih =>
      rw [List.cons_append, fitsTokens]
      rw [fitsTokens] at fits
      cases stretch : token.isStretch with
      | false =>
          rcases Token.exists_char_of_fits stretch fits with ⟨c, more, rfl, later, -, again⟩
          exact again _ _ (ih isOpen.tail later)
      | true =>
          cases token with
          | anyRun =>
              rcases Token.anyRun_fits_iff.mp fits with ⟨run, more, rfl, plain, later⟩
              exact Token.anyRun_fits_iff.mpr
                ⟨run, more ++ '/' :: rest, by simp, plain, ih isOpen.tail later⟩
          | anySegments =>
              rw [Token.anySegments_fits_iff] at fits ⊢
              rcases fits with ⟨front, more, rfl, lead, later⟩ | ends
              · exact .inl ⟨front, more ++ '/' :: rest, by simp, lead, ih isOpen.tail later⟩
              · -- What follows fits the empty path. It is made to fit the last segment instead.
                have stretches := isStretch_of_fitsTokens_nil ends
                rcases isOpen with rfl | ⟨rfl, last⟩
                · exact .inl ⟨[], _, rfl, .inl rfl,
                    fitsTokens_append_of_isStretch stretches (fitsTokens_anySegments _)⟩
                · rcases exists_lead_segment path with ⟨front, segment, rfl, lead, plain⟩
                  rcases exists_anyRun_last stretches last with ⟨before, rfl⟩
                  have fitsSegment : fitsTokens (before ++ [.anyRun]) segment = true :=
                    fitsTokens_append_of_isStretch
                      (fun token member => stretches token (List.mem_append_left _ member))
                      (fitsTokens_anyRun plain)
                  refine .inl ⟨front, segment ++ '/' :: rest, by simp, lead, ih ?_ fitsSegment⟩
                  exact .inr ⟨rfl, by simp⟩
          | _ => simp [Token.isStretch] at stretch

/-- A slash stands where a segment begins. -/
def HasEmptySegment (segment : Bool) (path : List Char) : Prop :=
  ∃ front rest, path = front ++ '/' :: rest ∧ (front = [] ∧ segment = true ∨ endsWith ['/'] front = true)

theorem HasEmptySegment.append {front path : List Char} {segment inner : Bool}
    (found : HasEmptySegment inner path)
    (begins : inner = true → IsLead front ∧ (front = [] → segment = true)) :
    HasEmptySegment segment (front ++ path) := by
  rcases found with ⟨before, rest, rfl, ⟨rfl, starts⟩ | slash⟩
  · rcases begins starts with ⟨rfl | lead, same⟩
    · exact ⟨[], rest, rfl, .inl ⟨rfl, same rfl⟩⟩
    · exact ⟨front, rest, rfl, .inr lead⟩
  · rcases endsWith_iff.mp slash with ⟨outer, rfl⟩
    exact ⟨front ++ (outer ++ ['/']), rest, by simp,
      .inr (endsWith_iff.mpr ⟨front ++ outer, by simp⟩)⟩

/-- A slash behind whole segments fits an empty segment alone. -/
theorem hasEmptySegment_of_fitsTokens {segment : Bool} {before behind : List Token} {path : List Char}
    (segmented : Spells.Segmented segment (before ++ .anySegments :: .literal '/' :: behind))
    (fits : fitsTokens (before ++ .anySegments :: .literal '/' :: behind) path = true) :
    HasEmptySegment segment path := by
  have noStretch {tokens : List Token} (slash : .literal '/' ∈ tokens) : fitsTokens tokens [] ≠ true :=
    fun ends => absurd (isStretch_of_fitsTokens_nil ends _ slash) (by decide)
  induction before generalizing segment path with
  | nil =>
      obtain rfl : segment = true := segmented.1
      rcases Token.anySegments_fits_iff.mp fits with ⟨front, rest, rfl, lead, later⟩ | ends
      · have slash : ∃ more, rest = '/' :: more := by
          rcases Token.exists_char_of_fits (by rfl) later with ⟨c, more, rfl, -⟩
          rw [fitsTokens, Token.fits, Bool.and_eq_true, beq_iff_eq] at later
          exact ⟨more, by rw [later.1]⟩
        rcases slash with ⟨more, rfl⟩
        refine ⟨front, more, rfl, ?_⟩
        rcases lead with rfl | lead
        · exact .inl ⟨rfl, rfl⟩
        · exact .inr lead
      · exact absurd ends (noStretch (by simp))
  | cons token before ih =>
      rw [List.cons_append, fitsTokens] at fits
      cases token with
      | anySegments =>
          obtain ⟨rfl, later⟩ := segmented
          rcases Token.anySegments_fits_iff.mp fits with ⟨front, rest, rfl, lead, fitsRest⟩ | ends
          · exact (ih later fitsRest).append fun _ => ⟨lead, fun _ => rfl⟩
          · exact absurd ends (noStretch (by simp))
      | anyRun =>
          rcases Token.anyRun_fits_iff.mp fits with ⟨run, rest, rfl, -, fitsRest⟩
          have found : HasEmptySegment false rest := ih segmented fitsRest
          exact found.append fun starts => absurd starts (by decide)
      | literal expected =>
          rcases Token.exists_char_of_fits (by rfl) fits with ⟨c, rest, rfl, fitsRest, -⟩
          rw [Token.fits, Bool.and_eq_true, beq_iff_eq] at fits
          obtain rfl := fits.1
          have found : HasEmptySegment (c == '/') rest := ih segmented fitsRest
          refine @HasEmptySegment.append [c] _ _ _ found fun starts => ?_
          obtain rfl := eq_of_beq starts
          exact ⟨.inr rfl, by simp⟩
      | anyChar =>
          rcases Token.exists_char_of_fits (by rfl) fits with ⟨c, rest, rfl, fitsRest, -⟩
          have found : HasEmptySegment false rest := ih segmented fitsRest
          exact @HasEmptySegment.append [c] _ _ _ found fun starts => absurd starts (by decide)
      | oneOf negated ranges =>
          rcases Token.exists_char_of_fits (by rfl) fits with ⟨c, rest, rfl, fitsRest, -⟩
          have found : HasEmptySegment false rest := ih segmented fitsRest
          exact @HasEmptySegment.append [c] _ _ _ found fun starts => absurd starts (by decide)

end Pattern

end AutoImport.Glob
