import AutoImport.Glob.Pattern
import AutoImport.Proofs.Path.Module

/-!
# What patterns spell and fit

`Spells` is the grammar of patterns, and the parser reads exactly it. What is put behind a pattern is
parsed on its own, except for `**`, which takes a slash behind it along. A pattern that fits a directory
fits the files below it when `/**` is put behind it, unless it ends with `**/`.
-/

namespace AutoImport.Glob

open Text

/-! ## The grammar -/

/-- Tokens that a text spells. `segment` says that a segment begins with it. -/
inductive Spells : (segment : Bool) → List Char → List Token → Prop where
  | nil (segment : Bool) : Spells segment [] []
  | allSegments : Spells true ['*', '*'] [.anySegments]
  | anySegments {text : List Char} {tokens : List Token} (later : Spells true text tokens) :
      Spells true ('*' :: '*' :: '/' :: text) (.anySegments :: tokens)
  | anyRun {segment : Bool} {text : List Char} {tokens : List Token} (ends : text.head? ≠ some '*')
      (later : Spells false text tokens) : Spells segment ('*' :: text) (.anyRun :: tokens)
  | anyChar {segment : Bool} {text : List Char} {tokens : List Token}
      (later : Spells false text tokens) : Spells segment ('?' :: text) (.anyChar :: tokens)
  /-- A class is read up to its closing bracket, whatever follows. -/
  | oneOf {segment : Bool} {spelling text : List Char} {tokens : List Token} {negated : Bool}
      {ranges : List CharRange} (closed : spelling.getLast? = some ']')
      (read : ∀ other, Pattern.readClass? (spelling ++ other) =
        some (.oneOf negated ranges, spelling.length))
      (later : Spells false text tokens) :
      Spells segment ('[' :: (spelling ++ text)) (.oneOf negated ranges :: tokens)
  | literal {segment : Bool} {c : Char} {text : List Char} {tokens : List Token}
      (plain : c ∉ ['*', '?', '[']) (later : Spells (c == '/') text tokens) :
      Spells segment (c :: text) (.literal c :: tokens)

theorem readClass?_closed {negated : Bool} {c : Char} {text : List Char} {extra length : Nat}
    {token : Token} (read : Pattern.readClass?.closed negated c text extra = some (token, length)) :
    ∃ content rest ranges, text = content ++ ']' :: rest ∧ length = content.length + extra ∧
      token = .oneOf negated ranges ∧
      ∀ other, Pattern.readClass?.closed negated c (content ++ ']' :: other) extra =
        some (token, length) := by
  rw [Pattern.readClass?.closed] at read
  split at read
  · rename_i inside
    simp only [Option.some.injEq, Prod.mk.injEq] at read
    obtain ⟨rfl, rfl⟩ := read
    obtain ⟨rest, shape⟩ : ∃ rest, text.dropWhile (· != ']') = ']' :: rest := by
      have stops := head?_dropWhile_stops (· != ']') text
      cases behind : text.dropWhile (· != ']') with
      | nil =>
          have whole := @List.takeWhile_append_dropWhile _ (· != ']') text
          rw [behind, List.append_nil] at whole
          rw [whole] at inside
          exact absurd inside (Nat.lt_irrefl _)
      | cons d rest =>
          rw [behind] at stops
          have same : d = ']' := by simpa using stops d rfl
          exact ⟨rest, by rw [same]⟩
    have plain (d : Char) (member : d ∈ text.takeWhile (· != ']')) : (d != ']') = true :=
      @mem_takeWhile_imp (· != ']') _ _ member
    refine ⟨text.takeWhile (· != ']'), rest, _, ?_, rfl, rfl, fun other => ?_⟩
    · rw [← shape, List.takeWhile_append_dropWhile]
    · have again : (text.takeWhile (· != ']') ++ ']' :: other).takeWhile (· != ']') =
          text.takeWhile (· != ']') := takeWhile_append_of_stop plain (by rintro d ⟨⟩; rfl)
      rw [Pattern.readClass?.closed]
      simp [again]
  · simp at read

/-- What is read as a class ends with its closing bracket. -/
theorem readClass?_eq_some {text : List Char} {token : Token} {length : Nat}
    (read : Pattern.readClass? text = some (token, length)) :
    ∃ spelling rest negated ranges, text = spelling ++ rest ∧ length = spelling.length ∧
      token = .oneOf negated ranges ∧ spelling.getLast? = some ']' ∧
      ∀ other, Pattern.readClass? (spelling ++ other) = some (token, length) := by
  unfold Pattern.readClass? at read
  split at read
  · rename_i c text
    rcases readClass?_closed read with ⟨content, rest, ranges, rfl, rfl, rfl, again⟩
    refine ⟨'!' :: c :: (content ++ [']']), rest, true, ranges, by simp, by simp, rfl, ?_, ?_⟩
    · simp [List.getLast?_cons]
    · intro other
      simpa [Pattern.readClass?] using again other
  · simp at read
  · rename_i c text notPair notSingle
    rcases readClass?_closed read with ⟨content, rest, ranges, rfl, rfl, rfl, again⟩
    refine ⟨c :: (content ++ [']']), rest, false, ranges, by simp, by simp, rfl, ?_, ?_⟩
    · simp [List.getLast?_cons]
    · intro other
      have apart : c ≠ '!' := by
        rintro rfl
        cases content with
        | nil => exact notPair _ _ rfl rfl
        | cons d content => exact notPair _ _ rfl rfl
      simp only [List.cons_append, List.append_assoc, List.nil_append]
      rw [Pattern.readClass?.eq_3 c _ (fun _ _ same => absurd same apart) (fun same => absurd same apart)]
      exact again other
  · simp at read

theorem spells_of_parseFrom {skip : Nat} {segment : Bool} {text : List Char} {tokens : List Token}
    (parsed : Pattern.parseFrom skip segment text = some tokens) :
    Spells segment (text.drop skip) tokens := by
  induction skip, segment, text using Pattern.parseFrom.induct generalizing tokens with
  | case1 skip segment =>
      rw [Pattern.parseFrom] at parsed
      obtain rfl := Option.some.inj parsed
      rw [List.drop_nil]
      exact .nil segment
  | case2 skip segment c text ih => exact ih parsed
  | case3 segment text inside =>
      rw [Pattern.parseFrom.eq_def] at parsed
      simp [inside] at parsed
  | case4 segment starts =>
      obtain rfl : segment = true := by simpa using starts
      rw [Pattern.parseFrom, if_neg (by decide)] at parsed
      obtain rfl := Option.some.inj parsed
      exact .allSegments
  | case5 segment starts text ih =>
      obtain rfl : segment = true := by simpa using starts
      rw [Pattern.parseFrom, if_neg (by decide)] at parsed
      rcases Option.map_eq_some_iff.mp parsed with ⟨tokens, later, rfl⟩
      exact .anySegments (ih later)
  | case6 segment text starts notEnd notSlash =>
      rw [Pattern.parseFrom.eq_5 segment text notEnd notSlash] at parsed
      simp at parsed
  | case7 segment text ends ih =>
      rw [Pattern.parseFrom.eq_6 segment text ends] at parsed
      rcases Option.map_eq_some_iff.mp parsed with ⟨tokens, later, rfl⟩
      refine .anyRun (fun star => ?_) (ih later)
      rcases List.head?_eq_some_iff.mp star with ⟨rest, shape⟩
      exact ends rest shape
  | case8 segment text ih =>
      rw [Pattern.parseFrom] at parsed
      rcases Option.map_eq_some_iff.mp parsed with ⟨tokens, later, rfl⟩
      exact .anyChar (ih later)
  | case9 segment text unread => simp [Pattern.parseFrom, unread] at parsed
  | case10 segment text token length read ih =>
      simp only [Pattern.parseFrom, read] at parsed
      rcases Option.map_eq_some_iff.mp parsed with ⟨tokens, later, rfl⟩
      rcases readClass?_eq_some read with ⟨spelling, rest, negated, ranges, rfl, rfl, rfl, closed, again⟩
      have behind := ih later
      rw [List.drop_left] at behind
      exact .oneOf closed again behind
  | case11 segment c text notPair notStar notMark notClass ih =>
      rw [Pattern.parseFrom.eq_9 segment c text notPair notStar notMark notClass] at parsed
      rcases Option.map_eq_some_iff.mp parsed with ⟨tokens, later, rfl⟩
      refine .literal ?_ (ih later)
      simpa using ⟨notStar, notMark, notClass⟩

theorem parseFrom_length_append (segment : Bool) (front text : List Char) :
    Pattern.parseFrom front.length segment (front ++ text) = Pattern.parseFrom 0 segment text := by
  induction front with
  | nil => rfl
  | cons c front ih => exact ih

namespace Spells

variable {segment : Bool} {text : List Char} {tokens : List Token}

theorem parseFrom (spells : Spells segment text tokens) :
    Pattern.parseFrom 0 segment text = some tokens := by
  induction spells with
  | nil segment => rfl
  | allSegments => rfl
  | @anySegments text tokens later ih =>
      rw [Pattern.parseFrom, if_neg (by decide)]
      exact congrArg (Option.map _) ih
  | @anyRun segment text tokens ends later ih =>
      rw [Pattern.parseFrom.eq_6 segment text fun rest shape => ends (by rw [shape]; rfl), ih]
      rfl
  | anyChar later ih =>
      rw [Pattern.parseFrom, ih]
      rfl
  | @oneOf segment spelling text tokens negated ranges closed read later ih =>
      simp only [Pattern.parseFrom, read text, parseFrom_length_append, ih, Option.map_some]
  | @literal segment c text tokens plain later ih =>
      simp only [List.mem_cons, List.not_mem_nil, or_false, not_or] at plain
      rw [Pattern.parseFrom.eq_9 segment c text (fun _ star _ => plain.1 star) plain.1 plain.2.1
        plain.2.2, ih]
      rfl

/-- Tokens of which each `**` begins a segment. -/
def Segmented : (segment : Bool) → List Token → Prop
  | _, [] => True
  | segment, .anySegments :: tokens => segment = true ∧ Segmented true tokens
  | _, .literal c :: tokens => Segmented (c == '/') tokens
  | _, _ :: tokens => Segmented false tokens

theorem segmented (spells : Spells segment text tokens) : Segmented segment tokens := by
  induction spells with
  | nil => trivial
  | allSegments => exact ⟨rfl, trivial⟩
  | anySegments _ ih => exact ⟨rfl, ih⟩
  | anyRun _ _ ih => exact ih
  | anyChar _ ih => exact ih
  | oneOf _ _ _ ih => exact ih
  | literal _ _ ih => exact ih

/-- The end of a pattern when `/**` is put behind it. -/
inductive Continues (text : List Char) (tokens : List Token) : List Token → Prop where
  | segments : Continues text tokens [.anySegments]
  | slash (otherLast : tokens.getLast? ≠ some .anySegments) :
      Continues text tokens [.literal '/', .anySegments]
  /-- The slash in `/**` is behind another one. -/
  | twoSlashes (hollow : endsWith ['*', '*', '/'] text = true) :
      Continues text tokens [.literal '/', .anySegments]

theorem Continues.append {ending : List Token} {token : Token} (front : List Char)
    (continues : Continues text tokens ending) (other : token ≠ .anySegments) :
    Continues (front ++ text) (token :: tokens) ending := by
  cases continues with
  | segments => exact .segments
  | slash otherLast =>
      refine .slash ?_
      cases tokens with
      | nil => simpa using other
      | cons next tokens => rwa [List.getLast?_cons_cons]
  | twoSlashes hollow =>
      rcases endsWith_iff.mp hollow with ⟨before, rfl⟩
      exact .twoSlashes (endsWith_iff.mpr ⟨front ++ before, (List.append_assoc _ _ _).symm⟩)

theorem Continues.anySegments {ending : List Token} (continues : Continues text tokens ending)
    (later : Spells true text tokens) :
    Continues ('*' :: '*' :: '/' :: text) (.anySegments :: tokens) ending := by
  cases continues with
  | segments => exact .segments
  | slash otherLast =>
      cases tokens with
      | nil =>
          -- `**/` is all there was, so the slash of `/**` stands behind its slash.
          cases later
          exact .twoSlashes rfl
      | cons next tokens =>
          refine .slash ?_
          rwa [List.getLast?_cons_cons]
  | twoSlashes hollow =>
      rcases endsWith_iff.mp hollow with ⟨before, rfl⟩
      exact .twoSlashes (endsWith_iff.mpr ⟨'*' :: '*' :: '/' :: before, rfl⟩)

theorem append_segments (spells : Spells segment text tokens) :
    ∃ ending, Spells segment (text ++ ['/', '*', '*']) (tokens ++ ending) ∧
      Continues text tokens ending := by
  induction spells with
  | nil segment =>
      exact ⟨_, .literal (by decide) .allSegments, .slash (by simp)⟩
  | allSegments => exact ⟨_, .anySegments .allSegments, .segments⟩
  | @anySegments text tokens later ih =>
      rcases ih with ⟨ending, spells, continues⟩
      exact ⟨ending, .anySegments spells, continues.anySegments later⟩
  | @anyRun segment text tokens ends later ih =>
      rcases ih with ⟨ending, spells, continues⟩
      refine ⟨ending, .anyRun ?_ spells, continues.append ['*'] (by simp)⟩
      cases text with
      | nil => decide
      | cons c text => exact ends
  | anyChar _ ih =>
      rcases ih with ⟨ending, spells, continues⟩
      exact ⟨ending, .anyChar spells, continues.append ['?'] (by simp)⟩
  | @oneOf segment spelling text tokens negated ranges closed read later ih =>
      rcases ih with ⟨ending, spells, continues⟩
      refine ⟨ending, ?_, continues.append ('[' :: spelling) (by simp)⟩
      have whole : Spells segment ('[' :: (spelling ++ (text ++ ['/', '*', '*'])))
          (.oneOf negated ranges :: (tokens ++ ending)) := .oneOf closed read spells
      simpa using whole
  | @literal segment c text tokens plain later ih =>
      rcases ih with ⟨ending, spells, continues⟩
      exact ⟨ending, .literal plain spells, continues.append [c] (by simp)⟩

/-- What ends with the closing bracket of a class is in front of a `**/` outside of it. -/
theorem exists_behind_class {spelling text front more : List Char}
    (closed : spelling.getLast? = some ']') (outside : ']' ∉ more)
    (shape : front ++ ['*', '*', '/'] ++ more = spelling ++ text) :
    ∃ rest, rest ++ ['*', '*', '/'] ++ more = text := by
  rw [List.append_assoc] at shape
  rcases List.append_eq_append_iff.mp shape with ⟨gap, cut, behind⟩ | ⟨rest, -, behind⟩
  · cases gap with
    | nil => exact ⟨[], behind⟩
    | cons d gap =>
        rw [cut, List.getLast?_append_of_ne_nil _ (by simp)] at closed
        have member : ']' ∈ ['*', '*', '/'] ++ more :=
          behind ▸ List.mem_append_left text (List.mem_of_getLast? closed)
        simp [outside] at member
  · exact ⟨rest, by rw [List.append_assoc, behind]⟩

/-- Outside of a class `**/` stands for segments wherever it is. -/
theorem exists_anySegments {front more : List Char}
    (spells : Spells segment (front ++ ['*', '*', '/'] ++ more) tokens) (outside : ']' ∉ more) :
    ∃ before behind, tokens = before ++ .anySegments :: behind ∧ Spells true more behind := by
  generalize shape : front ++ ['*', '*', '/'] ++ more = text at spells
  -- On how the text is spelled; `front` grows shorter until the `**/` is the token itself.
  induction spells generalizing front with
  | nil => simp at shape
  | allSegments =>
      have length := congrArg List.length shape
      simp only [List.length_append, List.length_cons, List.length_nil] at length
      omega
  | @anySegments text tokens later ih =>
      match front with
      | [] =>
          obtain rfl : more = text := by simpa using shape
          exact ⟨[], tokens, rfl, later⟩
      | [_] => simp at shape
      | [_, _] => simp at shape
      | _ :: _ :: _ :: front =>
          have rest : front ++ ['*', '*', '/'] ++ more = text := by
            simp only [List.cons_append, List.cons.injEq] at shape
            exact shape.2.2.2
          rcases ih rest with ⟨before, behind, rfl, spells⟩
          exact ⟨.anySegments :: before, behind, rfl, spells⟩
  | @anyRun segment text tokens ends later ih =>
      cases front with
      | nil =>
          obtain rfl : '*' :: '/' :: more = text := by simpa using shape
          simp at ends
      | cons c front =>
          rcases ih (List.cons.inj shape).2 with ⟨before, behind, rfl, spells⟩
          exact ⟨.anyRun :: before, behind, rfl, spells⟩
  | @anyChar segment text tokens later ih =>
      cases front with
      | nil => simp at shape
      | cons c front =>
          rcases ih (List.cons.inj shape).2 with ⟨before, behind, rfl, spells⟩
          exact ⟨.anyChar :: before, behind, rfl, spells⟩
  | @oneOf segment spelling text tokens negated ranges closed read later ih =>
      cases front with
      | nil => simp at shape
      | cons c front =>
          rcases exists_behind_class closed outside (List.cons.inj shape).2 with ⟨front, rest⟩
          rcases ih rest with ⟨before, behind, rfl, spells⟩
          exact ⟨_ :: before, behind, rfl, spells⟩
  | @literal segment c text tokens plain later ih =>
      cases front with
      | nil =>
          obtain ⟨rfl, -⟩ := List.cons.inj shape
          simp at plain
      | cons d front =>
          rcases ih (List.cons.inj shape).2 with ⟨before, behind, rfl, spells⟩
          exact ⟨_ :: before, behind, rfl, spells⟩

end Spells

end AutoImport.Glob
