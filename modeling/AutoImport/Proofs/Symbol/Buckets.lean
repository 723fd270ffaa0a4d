import AutoImport.Proofs.Path.Order

/-!
# Symbols under their keys

`Buckets.FiledBy` says that symbols are filed under their own keys, each key having one bucket that is
not empty. Changing the bucket of one key keeps it, changes the symbols of that key and no others, and
the bucket of a key holds exactly the symbols of that key.
-/

namespace AutoImport.Buckets

variable {Key : Type}

theorem mem_symbols {buckets : Buckets Key} {symbol : ExportedSymbol} :
    symbol ∈ buckets.symbols ↔ ∃ entry ∈ buckets.entries, symbol ∈ entry.2 := by
  simp [symbols]

theorem mem_consNonempty {key : Key} {bucket : List ExportedSymbol}
    {entries : List (Key × List ExportedSymbol)} {entry : Key × List ExportedSymbol} :
    entry ∈ consNonempty key bucket entries ↔
      (entry = (key, bucket) ∧ bucket ≠ []) ∨ entry ∈ entries := by
  cases bucket <;> simp [consNonempty]

theorem symbols_consNonempty (key : Key) (bucket : List ExportedSymbol)
    (entries : List (Key × List ExportedSymbol)) :
    (consNonempty key bucket entries).flatMap Prod.snd = bucket ++ entries.flatMap Prod.snd := by
  cases bucket <;> simp [consNonempty]

variable [Ord Key]

/-- The buckets are in the order of their keys, none is empty, and symbols are under their own key. -/
structure FiledBy (keyOf : ExportedSymbol → Key) (buckets : Buckets Key) : Prop where
  ordered : buckets.entries.Pairwise fun left right => compare left.1 right.1 = .lt
  nonempty : ∀ entry ∈ buckets.entries, entry.2 ≠ []
  filed : ∀ entry ∈ buckets.entries, ∀ symbol ∈ entry.2, compare (keyOf symbol) entry.1 = .eq

theorem empty_filedBy (keyOf : ExportedSymbol → Key) : (empty : Buckets Key).FiledBy keyOf :=
  ⟨List.Pairwise.nil, by simp [empty], by simp [empty]⟩

theorem find_cons (key other : Key) (bucket : List ExportedSymbol)
    (entries : List (Key × List ExportedSymbol)) :
    find ⟨(other, bucket) :: entries⟩ key =
      if compare key other = .eq then bucket else find ⟨entries⟩ key := by
  cases order : compare key other <;> simp [find, order]

theorem pairwise_consNonempty {key : Key} {bucket : List ExportedSymbol}
    {entries : List (Key × List ExportedSymbol)}
    (below : ∀ entry ∈ entries, compare key entry.1 = .lt)
    (ordered : entries.Pairwise fun left right => compare left.1 right.1 = .lt) :
    (consNonempty key bucket entries).Pairwise
      fun left right => compare left.1 right.1 = .lt := by
  cases bucket with
  | nil => simpa [consNonempty] using ordered
  | cons => exact List.pairwise_cons.mpr ⟨below, ordered⟩

theorem find_eq_nil_of_forall_lt {key : Key} {entries : List (Key × List ExportedSymbol)}
    (below : ∀ entry ∈ entries, compare key entry.1 = .lt) : find ⟨entries⟩ key = [] := by
  induction entries with
  | nil => rfl
  | cons entry entries ih =>
      rw [find_cons, if_neg (by simp [below entry]), ih]
      intro other member
      exact below other (List.mem_cons_of_mem _ member)

theorem find_eq_nil_or_mem (buckets : Buckets Key) (key : Key) :
    buckets.find key = [] ∨
      ∃ entry ∈ buckets.entries, compare key entry.1 = .eq ∧ entry.2 = buckets.find key := by
  obtain ⟨entries⟩ := buckets
  induction entries with
  | nil => exact .inl rfl
  | cons head entries ih =>
      obtain ⟨other, bucket⟩ := head
      rw [find_cons]
      split
      · rename_i same
        exact .inr ⟨(other, bucket), List.mem_cons_self, same, rfl⟩
      · rcases ih with empty | ⟨entry, member, same, found⟩
        · exact .inl empty
        · exact .inr ⟨entry, List.mem_cons_of_mem _ member, same, found⟩

theorem FiledBy.tail {keyOf : ExportedSymbol → Key} {head : Key × List ExportedSymbol}
    {entries : List (Key × List ExportedSymbol)}
    (filing : (Buckets.mk (head :: entries)).FiledBy keyOf) : (Buckets.mk entries).FiledBy keyOf :=
  ⟨(List.pairwise_cons.mp filing.ordered).2,
    fun entry member => filing.nonempty entry (List.mem_cons_of_mem _ member),
    fun entry member => filing.filed entry (List.mem_cons_of_mem _ member)⟩

variable [Std.TransOrd Key]

/-- An entry after a change was there before, or it is the changed bucket. -/
theorem mem_adjustEntries {change : List ExportedSymbol → List ExportedSymbol} {key : Key}
    {entries : List (Key × List ExportedSymbol)} {entry : Key × List ExportedSymbol}
    (member : entry ∈ adjustEntries change key entries) :
    entry ∈ entries ∨
      (compare key entry.1 = .eq ∧ entry.2 = change (find ⟨entries⟩ key) ∧ entry.2 ≠ []) ∨
      (compare key entry.1 = .eq ∧ entry.2 = change [] ∧ entry.2 ≠ []) := by
  induction entries with
  | nil =>
      rcases mem_consNonempty.mp member with ⟨rfl, filled⟩ | absurdity
      · exact .inr (.inr ⟨Std.ReflOrd.compare_self, rfl, filled⟩)
      · simp at absurdity
  | cons head entries ih =>
      obtain ⟨other, bucket⟩ := head
      rw [adjustEntries] at member
      rw [find_cons]
      cases order : compare key other with
      | lt =>
          rw [order] at member
          rcases mem_consNonempty.mp member with ⟨rfl, filled⟩ | kept
          · exact .inr (.inr ⟨Std.ReflOrd.compare_self, rfl, filled⟩)
          · exact .inl kept
      | eq =>
          rw [order] at member
          rcases mem_consNonempty.mp member with ⟨rfl, filled⟩ | kept
          · exact .inr (.inl ⟨order, by simp, filled⟩)
          · exact .inl (List.mem_cons_of_mem _ kept)
      | gt =>
          rw [order] at member
          rcases List.mem_cons.mp member with rfl | later
          · exact .inl List.mem_cons_self
          · rcases ih later with kept | changed | created
            · exact .inl (List.mem_cons_of_mem _ kept)
            · exact .inr (.inl (by simpa using changed))
            · exact .inr (.inr created)

theorem forall_lt_of_lt {key other : Key} (bucket : List ExportedSymbol)
    {entries : List (Key × List ExportedSymbol)} (order : compare key other = .lt)
    (below : ∀ entry ∈ entries, compare other entry.1 = .lt) :
    ∀ entry ∈ (other, bucket) :: entries, compare key entry.1 = .lt := by
  intro entry member
  rcases List.mem_cons.mp member with rfl | later
  · exact order
  · exact Std.TransCmp.lt_trans order (below entry later)

theorem pairwise_adjustEntries (change : List ExportedSymbol → List ExportedSymbol) (key : Key)
    {entries : List (Key × List ExportedSymbol)}
    (ordered : entries.Pairwise fun left right => compare left.1 right.1 = .lt) :
    (adjustEntries change key entries).Pairwise
      fun left right => compare left.1 right.1 = .lt := by
  induction entries with
  | nil => exact pairwise_consNonempty (by simp) List.Pairwise.nil
  | cons head entries ih =>
      obtain ⟨other, bucket⟩ := head
      have below := (List.pairwise_cons.mp ordered).1
      have orderedRest := (List.pairwise_cons.mp ordered).2
      rw [adjustEntries]
      cases order : compare key other with
      | lt => exact pairwise_consNonempty (forall_lt_of_lt bucket order below) ordered
      | eq => exact pairwise_consNonempty below orderedRest
      | gt =>
          refine List.pairwise_cons.mpr ⟨?_, ih orderedRest⟩
          intro entry member
          have otherBefore : compare other key = .lt := Std.OrientedCmp.lt_of_gt order
          rcases mem_adjustEntries member with kept | ⟨same, -⟩ | ⟨same, -⟩
          · exact below entry kept
          · exact Std.TransCmp.lt_of_lt_of_eq otherBefore same
          · exact Std.TransCmp.lt_of_lt_of_eq otherBefore same

theorem find_consNonempty (wanted : Key) {key : Key} (bucket : List ExportedSymbol)
    {entries : List (Key × List ExportedSymbol)}
    (below : ∀ entry ∈ entries, compare key entry.1 = .lt) :
    find ⟨consNonempty key bucket entries⟩ wanted =
      if compare wanted key = .eq then bucket else find ⟨entries⟩ wanted := by
  cases bucket with
  | cons symbol bucket => exact find_cons wanted key (symbol :: bucket) entries
  | nil =>
      split
      · rename_i same
        refine find_eq_nil_of_forall_lt fun entry member => ?_
        exact Std.TransCmp.lt_of_eq_of_lt same (below entry member)
      · rfl

/-- The symbols of a key are changed, and those of the other keys are not. -/
theorem find_adjust {buckets : Buckets Key}
    (ordered : buckets.entries.Pairwise fun left right => compare left.1 right.1 = .lt)
    (change : List ExportedSymbol → List ExportedSymbol) (key wanted : Key) :
    (buckets.adjust key change).find wanted =
      if compare wanted key = .eq then change (buckets.find key) else buckets.find wanted := by
  obtain ⟨entries⟩ := buckets
  change find ⟨adjustEntries change key entries⟩ wanted = _
  induction entries with
  | nil => exact find_consNonempty wanted (change []) (by simp)
  | cons head entries ih =>
      obtain ⟨other, bucket⟩ := head
      have below := (List.pairwise_cons.mp ordered).1
      have orderedRest := (List.pairwise_cons.mp ordered).2
      rw [adjustEntries, find_cons]
      cases order : compare key other with
      | lt =>
          have belowAll := forall_lt_of_lt bucket order below
          have empty : find ⟨entries⟩ key = [] :=
            find_eq_nil_of_forall_lt fun entry member => belowAll entry (List.mem_cons_of_mem _ member)
          simpa [empty] using find_consNonempty wanted (change []) belowAll
      | eq =>
          have sameKey : compare wanted other = .eq ↔ compare wanted key = .eq :=
            ⟨fun equal => Std.TransCmp.eq_trans equal (Std.OrientedCmp.eq_symm order),
              fun equal => Std.TransCmp.eq_trans equal order⟩
          have front := find_consNonempty wanted (change bucket) below
          simp only [sameKey] at front
          rw [find_cons]
          simp only [sameKey, reduceIte]
          split <;> simp_all
      | gt =>
          simp only [reduceCtorEq, reduceIte]
          rw [find_cons, find_cons, ih orderedRest]
          by_cases equal : compare wanted other = .eq
          · have apart : compare wanted key ≠ .eq := by
              intro same
              have := Std.TransCmp.eq_trans (Std.OrientedCmp.eq_symm same) equal
              simp [order] at this
            simp [equal, apart]
          · simp [equal]

/-- A change of one bucket, after which it still holds symbols of its key only, keeps the filing. -/
theorem FiledBy.adjust {keyOf : ExportedSymbol → Key} {buckets : Buckets Key}
    (filing : buckets.FiledBy keyOf) {key : Key}
    {change : List ExportedSymbol → List ExportedSymbol}
    (own : ∀ bucket : List ExportedSymbol, (∀ symbol ∈ bucket, compare (keyOf symbol) key = .eq) →
      ∀ symbol ∈ change bucket, compare (keyOf symbol) key = .eq) :
    (buckets.adjust key change).FiledBy keyOf where
  ordered := pairwise_adjustEntries change key filing.ordered
  nonempty := by
    intro entry member
    rcases mem_adjustEntries member with kept | ⟨-, -, filled⟩ | ⟨-, -, filled⟩
    · exact filing.nonempty entry kept
    · exact filled
    · exact filled
  filed := by
    intro entry member symbol symbolMember
    rcases mem_adjustEntries member with kept | ⟨same, changed, -⟩ | ⟨same, created, -⟩
    · exact filing.filed entry kept symbol symbolMember
    · rw [changed] at symbolMember
      refine Std.TransCmp.eq_trans (own _ ?_ symbol symbolMember) same
      intro other otherMember
      rcases find_eq_nil_or_mem buckets key with empty | ⟨old, oldMember, oldSame, found⟩
      · change other ∈ buckets.find key at otherMember
        simp [empty] at otherMember
      · change other ∈ buckets.find key at otherMember
        rw [← found] at otherMember
        exact Std.TransCmp.eq_trans (filing.filed old oldMember other otherMember)
          (Std.OrientedCmp.eq_symm oldSame)
    · rw [created] at symbolMember
      exact Std.TransCmp.eq_trans (own [] (by simp) symbol symbolMember) same

/-- A change that adds one symbol to the bucket of its key keeps the filing. -/
theorem FiledBy.adjust_cons {keyOf : ExportedSymbol → Key} {buckets : Buckets Key}
    (filing : buckets.FiledBy keyOf) {change : List ExportedSymbol → List ExportedSymbol}
    {symbol : ExportedSymbol} (adds : ∀ bucket, (change bucket).Perm (symbol :: bucket)) :
    (buckets.adjust (keyOf symbol) change).FiledBy keyOf := by
  apply filing.adjust
  intro bucket own other member
  rcases List.mem_cons.mp ((adds bucket).subset member) with rfl | old
  · exact Std.ReflOrd.compare_self
  · exact own other old

theorem compare_keyOf_eq_iff {keyOf : ExportedSymbol → Key} {symbol : ExportedSymbol}
    {key other : Key} (own : compare (keyOf symbol) other = .eq) :
    compare (keyOf symbol) key = .eq ↔ compare key other = .eq := by
  constructor
  · intro same
    exact Std.TransCmp.eq_trans (Std.OrientedCmp.eq_symm same) own
  · intro same
    exact Std.TransCmp.eq_trans own (Std.OrientedCmp.eq_symm same)

/-- The bucket of a key holds the symbols of that key, in the order in which they are filed. -/
theorem FiledBy.find_eq_filter {keyOf : ExportedSymbol → Key} {buckets : Buckets Key}
    (filing : buckets.FiledBy keyOf) (key : Key) :
    buckets.find key = buckets.symbols.filter fun symbol => compare (keyOf symbol) key == .eq := by
  obtain ⟨entries⟩ := buckets
  induction entries with
  | nil => rfl
  | cons head entries ih =>
      obtain ⟨other, bucket⟩ := head
      have below := (List.pairwise_cons.mp filing.ordered).1
      have rest := filing.tail
      have own := filing.filed (other, bucket) List.mem_cons_self
      rw [find_cons]
      simp only [symbols, List.flatMap_cons, List.filter_append]
      split
      · rename_i same
        have all : bucket.filter (fun symbol => compare (keyOf symbol) key == .eq) = bucket := by
          refine List.filter_eq_self.mpr fun symbol member => ?_
          simpa using (compare_keyOf_eq_iff (own symbol member)).mpr same
        have others : find ⟨entries⟩ key = [] :=
          find_eq_nil_of_forall_lt fun entry member =>
            Std.TransCmp.lt_of_eq_of_lt same (below entry member)
        rw [ih rest] at others
        simp only [symbols] at others
        rw [all, others, List.append_nil]
      · rename_i apart
        have empty : bucket.filter (fun symbol => compare (keyOf symbol) key == .eq) = [] := by
          refine List.filter_eq_nil_iff.mpr fun symbol member equal => apart ?_
          exact (compare_keyOf_eq_iff (own symbol member)).mp (by simpa using equal)
        rw [empty, List.nil_append]
        exact ih rest

/-- What a change of one bucket takes out and puts in. -/
theorem symbols_adjust_perm {buckets : Buckets Key}
    (ordered : buckets.entries.Pairwise fun left right => compare left.1 right.1 = .lt)
    (change : List ExportedSymbol → List ExportedSymbol) (key : Key) :
    ((buckets.adjust key change).symbols ++ buckets.find key).Perm
      (change (buckets.find key) ++ buckets.symbols) := by
  obtain ⟨entries⟩ := buckets
  change ((adjustEntries change key entries).flatMap Prod.snd ++ _).Perm (_ ++ entries.flatMap _)
  induction entries with
  | nil => simp [adjustEntries, symbols_consNonempty, find]
  | cons head entries ih =>
      obtain ⟨other, bucket⟩ := head
      have below := (List.pairwise_cons.mp ordered).1
      rw [adjustEntries, find_cons]
      cases order : compare key other with
      | lt =>
          have empty : find ⟨entries⟩ key = [] :=
            find_eq_nil_of_forall_lt fun entry member =>
              Std.TransCmp.lt_trans order (below entry member)
          simp [symbols_consNonempty, empty]
      | eq =>
          simp only [symbols_consNonempty, List.flatMap_cons, reduceIte, List.append_assoc]
          exact List.perm_append_comm.append_left _
      | gt =>
          simp only [List.flatMap_cons, reduceCtorEq, reduceIte, List.append_assoc]
          refine (List.Perm.append_left bucket (ih (List.pairwise_cons.mp ordered).2)).trans ?_
          exact List.perm_append_comm_assoc bucket _ _

/-- A change that adds one symbol to a bucket adds it to all symbols. -/
theorem symbols_adjust_cons {buckets : Buckets Key}
    (ordered : buckets.entries.Pairwise fun left right => compare left.1 right.1 = .lt)
    {change : List ExportedSymbol → List ExportedSymbol} {symbol : ExportedSymbol} (key : Key)
    (adds : ∀ bucket, (change bucket).Perm (symbol :: bucket)) :
    (buckets.adjust key change).symbols.Perm (symbol :: buckets.symbols) := by
  have moved := (symbols_adjust_perm ordered change key).trans ((adds _).append_right _)
  refine (List.perm_append_right_iff (buckets.find key)).mp (moved.trans ?_)
  exact (List.perm_append_comm.cons symbol)

theorem FiledBy.compare_ne_of_forall_lt {keyOf : ExportedSymbol → Key} {key : Key}
    {entries : List (Key × List ExportedSymbol)} (filing : (Buckets.mk entries).FiledBy keyOf)
    (below : ∀ entry ∈ entries, compare key entry.1 = .lt) :
    ∀ symbol ∈ entries.flatMap Prod.snd, compare (keyOf symbol) key ≠ .eq := by
  intro symbol member
  obtain ⟨entry, entryMember, symbolMember⟩ := List.mem_flatMap.mp member
  rw [ne_eq, compare_keyOf_eq_iff (filing.filed entry entryMember symbol symbolMember)]
  simp [below entry entryMember]

/-- A change that keeps some symbols of one key keeps all symbols of the other keys. -/
theorem FiledBy.symbols_adjust_filter {keyOf : ExportedSymbol → Key} {buckets : Buckets Key}
    (filing : buckets.FiledBy keyOf) (key : Key) (keep : ExportedSymbol → Bool) :
    (buckets.adjust key (List.filter keep)).symbols =
      buckets.symbols.filter fun symbol => compare (keyOf symbol) key != .eq || keep symbol := by
  obtain ⟨entries⟩ := buckets
  change (adjustEntries (List.filter keep) key entries).flatMap Prod.snd =
    (entries.flatMap Prod.snd).filter _
  have untouched : ∀ bucket : List ExportedSymbol,
      (∀ symbol ∈ bucket, compare (keyOf symbol) key ≠ .eq) →
      bucket.filter (fun symbol => compare (keyOf symbol) key != .eq || keep symbol) = bucket := by
    intro bucket apart
    refine List.filter_eq_self.mpr fun symbol member => ?_
    simp [apart symbol member]
  induction entries with
  | nil => simp [adjustEntries, consNonempty]
  | cons head entries ih =>
      obtain ⟨other, bucket⟩ := head
      have below := (List.pairwise_cons.mp filing.ordered).1
      have rest := filing.tail
      have own := filing.filed (other, bucket) List.mem_cons_self
      rw [adjustEntries]
      cases order : compare key other with
      | lt =>
          simp only [List.filter_nil, symbols_consNonempty, List.nil_append]
          exact (untouched _
            (filing.compare_ne_of_forall_lt (forall_lt_of_lt bucket order below))).symm
      | eq =>
          have belowKey : ∀ entry ∈ entries, compare key entry.1 = .lt := fun entry member =>
            Std.TransCmp.lt_of_eq_of_lt order (below entry member)
          simp only [symbols_consNonempty, List.flatMap_cons, List.filter_append]
          congr 1
          · refine List.filter_congr fun symbol member => ?_
            simp [(compare_keyOf_eq_iff (own symbol member)).mpr order]
          · exact (untouched _ (rest.compare_ne_of_forall_lt belowKey)).symm
      | gt =>
          simp only [List.flatMap_cons, List.filter_append]
          congr 1
          · refine (untouched _ fun symbol member => ?_).symm
            rw [ne_eq, compare_keyOf_eq_iff (own symbol member)]
            simp [order]
          · exact ih rest

theorem FiledBy.adjust_filter {keyOf : ExportedSymbol → Key} {buckets : Buckets Key}
    (filing : buckets.FiledBy keyOf) (key : Key) (keep : ExportedSymbol → Bool) :
    (buckets.adjust key (List.filter keep)).FiledBy keyOf := by
  apply filing.adjust
  intro bucket own symbol member
  exact own symbol (List.mem_filter.mp member).1

/-- A bucket of which some symbols are kept was there before with more symbols. -/
theorem exists_sublist_of_mem_adjust_filter {buckets : Buckets Key} {key : Key}
    {keep : ExportedSymbol → Bool} {entry : Key × List ExportedSymbol}
    (member : entry ∈ (buckets.adjust key (List.filter keep)).entries) :
    ∃ old ∈ buckets.entries, entry.2.Sublist old.2 := by
  rcases mem_adjustEntries member with kept | ⟨-, changed, filled⟩ | ⟨-, created, filled⟩
  · exact ⟨entry, kept, List.Sublist.refl _⟩
  · rcases find_eq_nil_or_mem buckets key with empty | ⟨old, oldMember, -, found⟩
    · change entry.2 = (buckets.find key).filter keep at changed
      simp [changed, empty] at filled
    · change entry.2 = (buckets.find key).filter keep at changed
      rw [changed, ← found]
      exact ⟨old, oldMember, List.filter_sublist⟩
  · simp [created] at filled

/-- Keeping some symbols of several keys, one key after the other. -/
theorem FiledBy.foldl_adjust_filter {keyOf : ExportedSymbol → Key} (keep : ExportedSymbol → Bool)
    (removed : List ExportedSymbol) {buckets : Buckets Key} (filing : buckets.FiledBy keyOf) :
    let after := removed.foldl (fun buckets symbol =>
      buckets.adjust (keyOf symbol) (List.filter keep)) buckets
    after.FiledBy keyOf ∧
      (∀ entry ∈ after.entries, ∃ old ∈ buckets.entries, entry.2.Sublist old.2) ∧
      after.symbols = buckets.symbols.filter fun symbol =>
        removed.all (fun other => compare (keyOf symbol) (keyOf other) != .eq) || keep symbol := by
  induction removed generalizing buckets with
  | nil =>
      refine ⟨filing, fun entry member => ⟨entry, member, List.Sublist.refl _⟩, ?_⟩
      exact (List.filter_eq_self.mpr (by simp)).symm
  | cons other removed ih =>
      obtain ⟨filed, older, symbols⟩ := ih (filing.adjust_filter (keyOf other) keep)
      refine ⟨filed, ?_, ?_⟩
      · intro entry member
        obtain ⟨middle, middleMember, shorter⟩ := older entry member
        obtain ⟨old, oldMember, shorterStill⟩ := exists_sublist_of_mem_adjust_filter middleMember
        exact ⟨old, oldMember, shorter.trans shorterStill⟩
      · rw [List.foldl_cons, symbols, filing.symbols_adjust_filter, List.filter_filter]
        refine List.filter_congr fun symbol _ => ?_
        rw [List.all_cons]
        cases keep symbol <;> simp [Bool.and_comm]

end AutoImport.Buckets
