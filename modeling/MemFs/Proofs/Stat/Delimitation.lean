import MemFs.Proofs.Stat.Acceptance

/-!
# Where records end

A reader is steady when bytes that come behind change nothing but what is left, unless it had too
few bytes. Every reader of a record is steady. So a record that is cut short lacks bytes and has no
other fault, and a sequence of records has no mark between two records and needs none.
-/

namespace MemFs

namespace Reader

variable {α β : Type}

/-- Unless it lacks bytes, the reader does with more of them what it does without, and leaves those
too. -/
def Steady (reader : Reader α) : Prop :=
  ∀ bytes more, reader bytes = .error (.transfer .endOfInput) ∨
    reader (bytes ++ more) = (reader bytes).map fun (value, rest) => (value, rest ++ more)

namespace Steady

theorem pure (value : α) : Steady (Pure.pure value : Reader α) := by
  intro bytes more
  exact Or.inr rfl

theorem refuse (error : RecordError) : Steady (throw error : Reader α) := by
  intro bytes more
  exact Or.inr rfl

theorem bind {reader : Reader α} {next : α → Reader β} (first : Steady reader)
    (second : ∀ value, Steady (next value)) : Steady (reader >>= next) := by
  intro bytes more
  change (reader bytes >>= fun (found, left) => next found left) = _ ∨
    (reader (bytes ++ more) >>= fun (found, left) => next found left) =
      (reader bytes >>= fun (found, left) => next found left).map _
  rcases first bytes more with lacking | same
  · left
    rw [lacking]
    rfl
  · rw [same]
    cases reader bytes with
    | error error =>
        right
        rfl
    | ok pair => exact second pair.1 pair.2 more

theorem take (count : Nat) : Steady (Reader.take count) := by
  intro bytes more
  by_cases enough : count ≤ bytes.length
  · right
    have longer : count ≤ (bytes ++ more).length := by
      rw [List.length_append]
      omega
    simp only [Reader.take, List.length_take, Nat.min_eq_left enough, if_pos, Except.map,
      List.take_append_of_le_length enough, List.drop_append_of_le_length enough]
  · left
    have short : ¬ min count bytes.length = count := by omega
    simp only [Reader.take, List.length_take, if_neg short]

theorem number (width : Nat) : Steady (Reader.number width) :=
  (take width).bind fun _ => pure _

theorem text : Steady Reader.text := by
  refine (number 2).bind fun length => (take length).bind fun content => ?_
  cases Utf8.decode content with
  | ok value => exact pure value
  | error fault => exact refuse _

theorem qid : Steady Reader.qid :=
  (number 1).bind fun _ => (number 4).bind fun _ => (number 8).bind fun _ => pure _

theorem stat : Steady Reader.stat := by
  refine (number 2).bind fun declared => (number 2).bind fun _ => (number 4).bind fun _ =>
    qid.bind fun _ => (number 4).bind fun _ => (number 4).bind fun _ => (number 4).bind fun _ =>
      (number 8).bind fun _ => text.bind fun _ => text.bind fun _ => text.bind fun _ =>
        text.bind fun _ => ?_
  dsimp only
  split
  · exact pure _
  · exact refuse _

end Steady

end Reader

namespace Stat

/-! ## One record -/

/-- Reading a record takes its bytes from the front. -/
theorem length_of_decode {stat : Stat} {bytes rest : List UInt8}
    (decoded : decode bytes = .ok (stat, rest)) :
    bytes.length = stat.encodedLength + rest.length := by
  obtain ⟨-, kind, -, split⟩ := Reader.exists_of_stat decoded
  have sameLength : (stat.bytesOfKind kind).length = stat.encodedLength := by
    rw [← set_bytesOfKind stat stat.qid.kind.byte kind, ← bytes_eq, List.length_set, length_bytes]
  rw [split, List.length_append, sameLength]

theorem length_lt_of_decode {stat : Stat} {bytes rest : List UInt8}
    (decoded : decode bytes = .ok (stat, rest)) : rest.length < bytes.length := by
  rw [length_of_decode decoded, encodedLength, fixedLength]
  omega

theorem decode_of_encode {stat : Stat} {piece : List UInt8} (written : stat.encode = .ok piece)
    (rest : List UInt8) : decode (piece ++ rest) = .ok (stat, rest) := by
  obtain ⟨short, same⟩ := encode_eq_ok_iff.mp written
  rw [same]
  exact decode_bytes short rest

/-- A record that is cut short lacks bytes, whatever field the cut is in. -/
theorem decode_take_of_lt {stat : Stat} {piece : List UInt8} (written : stat.encode = .ok piece)
    {cut : Nat} (inside : cut < piece.length) :
    decode (piece.take cut) = .error (.transfer .endOfInput) := by
  rcases Reader.Steady.stat (piece.take cut) (piece.drop cut) with lacking | same
  · exact lacking
  · have whole : Reader.stat (piece.take cut ++ piece.drop cut) = .ok (stat, []) := by
      rw [List.take_append_drop, ← List.append_nil piece]
      exact decode_of_encode written []
    rw [whole] at same
    cases front : Reader.stat (piece.take cut) with
    | error error =>
        rw [front] at same
        cases same
    | ok pair =>
        rw [front] at same
        -- Reading the front alone would leave what comes behind the cut, and that is not nothing.
        have nothing : pair.2 ++ piece.drop cut = [] := congrArg Prod.snd (Except.ok.inj same.symm)
        have none : piece.drop cut = [] := (List.append_eq_nil_iff.mp nothing).2
        have behind : piece.length ≤ cut := List.drop_eq_nil_iff.mp none
        omega

/-! ## The records one after the other -/

/-- Any limit that is not less than the number of bytes serves. -/
theorem decodeUpTo_eq_decodeAll {limit : Nat} {bytes : List UInt8} (enough : bytes.length ≤ limit) :
    decodeUpTo limit bytes = decodeAll bytes := by
  suffices sameLimit : ∀ first second bytes, bytes.length ≤ first → bytes.length ≤ second →
      decodeUpTo first bytes = decodeUpTo second bytes from
    sameLimit limit bytes.length bytes enough (Nat.le_refl _)
  intro first
  induction first with
  | zero =>
      intro second bytes none _
      rw [List.length_eq_zero_iff.mp (Nat.le_zero.mp none), decodeUpTo, decodeUpTo]
  | succ first inductionHypothesis =>
      intro second bytes firstEnough secondEnough
      cases bytes with
      | nil => rw [decodeUpTo, decodeUpTo]
      | cons byte more =>
          obtain ⟨second, rfl⟩ : ∃ before, second = before + 1 :=
            Nat.exists_eq_add_one.mpr (Nat.lt_of_lt_of_le (Nat.zero_lt_succ _) secondEnough)
          rw [decodeUpTo, decodeUpTo]
          · cases decoded : decode (byte :: more) with
            | error error => rfl
            | ok pair =>
                have shorter : pair.2.length < (byte :: more).length := length_lt_of_decode decoded
                change (decodeUpTo first pair.2 >>= fun later => pure (pair.1 :: later)) =
                  (decodeUpTo second pair.2 >>= fun later => pure (pair.1 :: later))
                rw [inductionHypothesis second pair.2 (by omega) (by omega)]
          · intro empty
            cases empty
          · intro empty
            cases empty

theorem decodeAll_of_decode {stat : Stat} {bytes rest : List UInt8}
    (decoded : decode bytes = .ok (stat, rest)) :
    decodeAll bytes = (decodeAll rest).map (stat :: ·) := by
  have shorter := length_lt_of_decode decoded
  cases bytes with
  | nil => cases shorter
  | cons byte more =>
      rw [decodeAll, List.length_cons, decodeUpTo, decoded]
      · change (decodeUpTo more.length rest >>= fun later => pure (stat :: later)) = _
        rw [decodeUpTo_eq_decodeAll (Nat.le_of_lt_succ shorter)]
        cases decodeAll rest <;> rfl
      · intro empty
        cases empty

theorem decodeAll_of_decode_error {bytes : List UInt8} {error : RecordError} (present : bytes ≠ [])
    (refused : decode bytes = .error error) : decodeAll bytes = .error error := by
  cases bytes with
  | nil => cases present rfl
  | cons byte more =>
      rw [decodeAll, List.length_cons, decodeUpTo, refused]
      · rfl
      · exact fun empty => present empty

/-- Bytes that are read as records are none at all, or a record with such bytes behind it. -/
theorem decodeAll_eq_ok_cases {bytes : List UInt8} {read : List Stat}
    (decoded : decodeAll bytes = .ok read) :
    bytes = [] ∧ read = [] ∨ ∃ stat rest later, decode bytes = .ok (stat, rest) ∧
      decodeAll rest = .ok later ∧ read = stat :: later := by
  by_cases empty : bytes = []
  · subst empty
    exact Or.inl ⟨rfl, (Except.ok.inj decoded).symm⟩
  · right
    cases here : decode bytes with
    | error error => cases decoded.symm.trans (decodeAll_of_decode_error empty here)
    | ok pair =>
        rw [decodeAll_of_decode here] at decoded
        cases there : decodeAll pair.2 with
        | error error =>
            rw [there] at decoded
            cases decoded
        | ok later =>
            rw [there] at decoded
            exact ⟨pair.1, pair.2, later, rfl, there, (Except.ok.inj decoded).symm⟩

/-- What comes behind records is read as if it stood alone. -/
theorem decodeAll_append {first : List UInt8} {read : List Stat}
    (decoded : decodeAll first = .ok read) (second : List UInt8) :
    decodeAll (first ++ second) = (decodeAll second).map (read ++ ·) := by
  induction read generalizing first with
  | nil =>
      rcases decodeAll_eq_ok_cases decoded with ⟨rfl, -⟩ | ⟨stat, rest, later, -, -, same⟩
      · rw [List.nil_append]
        cases decodeAll second <;> rfl
      · cases same
  | cons stat later inductionHypothesis =>
      rcases decodeAll_eq_ok_cases decoded with ⟨-, same⟩ | ⟨_, rest, _, here, there, same⟩
      · cases same
      · cases same
        have longer : decode (first ++ second) = .ok (stat, rest ++ second) := by
          rcases Reader.Steady.stat first second with lacking | steady
          · cases lacking.symm.trans here
          · exact steady.trans (congrArg _ here)
        rw [decodeAll_of_decode longer, inductionHypothesis there]
        cases decodeAll second <;> rfl

/-! ## Cuts -/

/-- The number of bytes of the first records of a sequence, as many as `count`. -/
def boundary (stats : List Stat) (count : Nat) : Nat :=
  ((stats.take count).map encodedLength).sum

theorem boundary_cons_succ (stat : Stat) (stats : List Stat) (count : Nat) :
    boundary (stat :: stats) (count + 1) = stat.encodedLength + boundary stats count := by
  rw [boundary, List.take_succ_cons, List.map_cons, List.sum_cons, boundary]

theorem length_flatten_of_encodings {stats : List Stat} {pieces : List (List UInt8)}
    (encodings : Encodings stats pieces) :
    pieces.flatten.length = boundary stats stats.length := by
  induction encodings with
  | nil => rfl
  | cons written _ inductionHypothesis =>
      rw [List.flatten_cons, List.length_append, (length_of_encode written).1,
        inductionHypothesis, List.length_cons, boundary_cons_succ]

/-- A cut at a boundary leaves the encodings of the first records. -/
theorem take_boundary {stats : List Stat} {pieces : List (List UInt8)}
    (encodings : Encodings stats pieces) (count : Nat) :
    pieces.flatten.take (boundary stats count) = (pieces.take count).flatten := by
  induction encodings generalizing count with
  | nil => simp
  | @cons stat piece stats pieces written _ inductionHypothesis =>
      cases count with
      | zero => rfl
      | succ count =>
          rw [boundary_cons_succ, ← (length_of_encode written).1, List.flatten_cons,
            List.take_length_add_append, inductionHypothesis, List.take_succ_cons,
            List.flatten_cons]

/-- A cut is at a boundary, or what it leaves lacks bytes. -/
theorem decodeAll_take {stats : List Stat} {pieces : List (List UInt8)}
    (encodings : Encodings stats pieces) {cut : Nat} (within : cut ≤ pieces.flatten.length) :
    (∃ count ≤ stats.length, cut = boundary stats count) ∨
      decodeAll (pieces.flatten.take cut) = .error (.transfer .endOfInput) := by
  induction encodings generalizing cut with
  | nil => exact Or.inl ⟨0, Nat.le_refl 0, Nat.le_zero.mp within⟩
  | @cons stat piece stats pieces written _ inductionHypothesis =>
      have length := (length_of_encode written).1
      rw [List.flatten_cons, List.length_append] at within
      by_cases atStart : cut = 0
      · exact Or.inl ⟨0, Nat.zero_le _, atStart⟩
      · by_cases inside : cut < piece.length
        · right
          rw [List.flatten_cons, List.take_append_of_le_length (Nat.le_of_lt inside)]
          refine decodeAll_of_decode_error ?_ (decode_take_of_lt written inside)
          rw [ne_eq, List.take_eq_nil_iff, not_or]
          exact ⟨atStart, List.ne_nil_of_length_pos (length_of_encode written).2⟩
        · obtain ⟨beyond, rfl⟩ := Nat.exists_eq_add_of_le (Nat.le_of_not_lt inside)
          have inRest : beyond ≤ pieces.flatten.length := by omega
          rcases inductionHypothesis inRest with ⟨count, counted, same⟩ | lacking
          · exact Or.inl ⟨count + 1, Nat.succ_le_succ counted,
              by rw [boundary_cons_succ, length, same]⟩
          · right
            rw [List.flatten_cons, List.take_length_add_append,
              decodeAll_of_decode (decode_of_encode written _), lacking]
            rfl

/-- Records that can be written delimit themselves: their bytes are read back as these records, a
cut leaves whole records exactly at a boundary and lacks bytes everywhere else, and what comes
behind records is read as if it stood alone. -/
theorem listing_delimits_itself {stats : List Stat}
    (encodable : ∀ stat ∈ stats, ∃ bytes, stat.encode = .ok bytes) :
    (∃ listing, encodeAll stats = .ok listing ∧ listing.length = boundary stats stats.length ∧
      decodeAll listing = .ok stats ∧
      ∀ cut ≤ listing.length,
        (∀ read, decodeAll (listing.take cut) = .ok read ↔
          ∃ count ≤ stats.length, cut = boundary stats count ∧ read = stats.take count) ∧
        ((¬ ∃ count ≤ stats.length, cut = boundary stats count) →
          decodeAll (listing.take cut) = .error (.transfer .endOfInput))) ∧
    ∀ first second read, decodeAll first = .ok read →
      decodeAll (first ++ second) = (decodeAll second).map (read ++ ·) := by
  obtain ⟨pieces, encodings⟩ := exists_encodings encodable
  have atBoundary : ∀ count, decodeAll (pieces.flatten.take (boundary stats count)) =
      .ok (stats.take count) := by
    intro count
    rw [take_boundary encodings]
    exact decodeAll_of_encodings (List.forall₂_take count encodings)
  refine ⟨⟨pieces.flatten, encodeAll_of_encodings encodings,
    length_flatten_of_encodings encodings, decodeAll_of_encodings encodings, ?_⟩,
    fun first second read decoded => decodeAll_append decoded second⟩
  intro cut within
  refine ⟨fun read => ⟨?_, ?_⟩,
    fun elsewhere => (decodeAll_take encodings within).resolve_left elsewhere⟩
  · intro decoded
    rcases decodeAll_take encodings within with ⟨count, counted, same⟩ | lacking
    · refine ⟨count, counted, same, ?_⟩
      rw [same, atBoundary count] at decoded
      exact (Except.ok.inj decoded).symm
    · cases lacking.symm.trans decoded
  · rintro ⟨count, -, rfl, rfl⟩
    exact atBoundary count

/-- A record whose name is one letter of two bytes. -/
def accented : Stat where
  serverType := 0
  serverDevice := 0
  qid := ⟨.file, 3, 7⟩
  mode := ⟨0o644⟩
  accessTime := 0
  modifyTime := 0
  length := 5
  name := "é"
  owner := ""
  group := ""
  lastModifier := ""

/-- Cuts of two records inside the letter, before the second record and in its size field. -/
theorem accented_listing_cut :
    ∃ listing, encodeAll [accented, accented] = .ok listing ∧
      decodeAll (listing.take 44) = .error (.transfer .endOfInput) ∧
      decodeAll (listing.take 51) = .ok [accented] ∧
      decodeAll (listing.take 52) = .error (.transfer .endOfInput) := by
  have encodable : ∀ stat ∈ [accented, accented], ∃ bytes, stat.encode = .ok bytes := by
    have written : accented.encode = .ok accented.bytes :=
      encode_eq_ok_iff.mpr ⟨by decide +kernel, rfl⟩
    simp only [List.forall_mem_cons]
    exact ⟨⟨_, written⟩, ⟨_, written⟩, fun stat absent => nomatch absent⟩
  obtain ⟨⟨listing, written, length, -, cuts⟩, -⟩ := listing_delimits_itself encodable
  have whole : listing.length = 102 := length.trans (by decide +kernel)
  refine ⟨listing, written, (cuts 44 (by omega)).2 (by decide +kernel),
    ((cuts 51 (by omega)).1 [accented]).mpr ⟨1, by decide, by decide +kernel, rfl⟩,
    (cuts 52 (by omega)).2 (by decide +kernel)⟩

end Stat

end MemFs
