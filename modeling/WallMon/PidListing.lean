import WallMon.CheckedInt
import WallMon.DefinedProcesses
import WallMon.PidMonitor

/-!
# The pids in a text: `System::GetAllPids`

The pids come from a pipe that lists the numeric names in `/proc`, in the order of `ls`.
`_TokenizeFile` skips to the next word, reads at most 100 bytes of it, and goes on until the end
of the file. It comes to an end whatever is printed, and reads back the numbers of a listing. So
from one listing to the next `PidMonitor` finds exactly the pids that were not there before, in
their order as numbers (`differences_of_listings`).
-/

namespace WallMon

/-! ## `System` -/

/-- `[a-zA-Z0-9'_]` -/
def isWord (b : UInt8) : Bool :=
  (97 ≤ b && b ≤ 122) || (65 ≤ b && b ≤ 90) || Scan.isDigit b || b == 39 || b == 95

/-- A `FILE` that is read -/
structure ReadFile where
  /-- what is left -/
  rest : List UInt8
  /-- the end has been seen -/
  eof : Bool
  deriving DecidableEq

namespace ReadFile

/-- `fscanf(file, "%*[^a-zA-Z0-9'_]")` -/
def skip (f : ReadFile) : ReadFile :=
  let rest := f.rest.dropWhile (!isWord ·)
  { rest, eof := f.eof || rest.isEmpty }

/-- `fscanf(file, "%100[a-zA-Z0-9'_]", buf)`: the word that is read, empty if there is none. The
end is seen if there are less than 100 bytes up to it. -/
def word (f : ReadFile) : List UInt8 × ReadFile :=
  let buf := (f.rest.takeWhile isWord).take 100
  let rest := f.rest.drop buf.length
  (buf, { rest, eof := f.eof || (decide (buf.length < 100) && rest.isEmpty) })

end ReadFile

/-- `_TokenizeFile` -/
def tokenizeFile : ℕ → ReadFile → List ℤ → Except Fault (List ℤ)
  | 0, _, _ => .error .outOfFuel
  | fuel + 1, file, v =>
    if file.eof then .ok v
    else
      let (buf, file) := file.skip.word
      tokenizeFile fuel file (if buf = [] then v else v ++ [atoi buf])

/-- `System::GetAllPids`: whether there was a pipe, and the pids; `none` if there is none -/
def getAllPids (output : Option (List UInt8)) (pids : List ℤ) : Except Fault (Bool × List ℤ) :=
  match output with
  | none => .ok (false, pids)
  | some text => do
    let pids ← tokenizeFile (text.length + 2) { rest := text, eof := false } pids
    return (true, pids)

/-- `PidMonitor::Update`, from what the pipe prints -/
def PidMonitor.updateFrom (m : PidMonitor) (output : Option (List UInt8)) :
    Except Fault PidMonitor := do
  let (_, newPids) ← getAllPids output []
  return m.update (some newPids)

/-- What the pipe prints for pids: each on a line -/
def listing (pids : List ℕ) : List UInt8 := pids.flatMap (Scan.natText · ++ [10])

/-- The pids of the last listing; a pipe that could not be opened lists none -/
def lastPids (listings : List (Option (List ℕ))) : List ℤ :=
  (listings.getLast?.join.getD []).map Nat.cast

/-! ## The end of the loop -/

/-- A round comes nearer to the end, if it does not see it. -/
theorem ReadFile.word_progress (f : ReadFile) :
    f.skip.word.2.eof = true ∨ f.skip.word.2.rest.length < f.rest.length := by
  have hle : (f.rest.dropWhile (!isWord ·)).length ≤ f.rest.length :=
    (List.dropWhile_suffix _).length_le
  cases hrest : f.rest.dropWhile (!isWord ·) with
  | nil =>
    refine .inl ?_
    simp [skip, word, hrest]
  | cons b s =>
    -- skipping stops at a word, of which at least a byte is read
    have hword : isWord b = true := by
      have hhead := List.head?_dropWhile_not (!isWord ·) f.rest
      rw [hrest] at hhead
      simpa using hhead
    rw [hrest, List.length_cons] at hle
    refine .inr ?_
    simp only [skip, word, hrest, List.takeWhile_cons_of_pos hword, List.take_succ_cons,
      List.length_cons, List.drop_succ_cons, List.length_drop]
    omega

/-- **The loop ends**, whatever the pipe prints. -/
theorem tokenizeFile_terminates {fuel : ℕ} {file : ReadFile} (v : List ℤ)
    (hfuel : file.rest.length + 2 ≤ fuel) : ∃ v', tokenizeFile fuel file v = .ok v' := by
  induction fuel generalizing file v with
  | zero => exact absurd hfuel (by omega)
  | succ fuel ih =>
    rw [tokenizeFile]
    split
    · exact ⟨v, rfl⟩
    · have hprogress := file.word_progress
      generalize file.skip.word = read at hprogress ⊢
      rcases hprogress with heof | hless
      · obtain ⟨fuel, rfl⟩ : ∃ k, fuel = k + 1 := ⟨fuel - 1, by omega⟩
        exact ⟨_, if_pos heof⟩
      · exact ih _ (by omega)

/-! ## Reading numbers back -/

theorem isWord_of_isDigit {b : UInt8} (h : Scan.isDigit b = true) : isWord b = true := by
  simp [isWord, h]

theorem atoi_natText (n : ℕ) : atoi (Scan.natText n) = n := by
  rw [atoi, Scan.decimal_read_natText]

/-- A number of a text, and what comes after it -/
structure Numeral where
  /-- the number -/
  value : ℕ
  /-- what comes after it -/
  gap : List UInt8

/-- The numbers can be read, and are apart. -/
structure Numeral.Apart (n : Numeral) : Prop where
  /-- at most 100 digits -/
  lt : n.value < 10 ^ 100
  /-- there is something in between -/
  gap_ne_nil : n.gap ≠ []
  /-- which is no word -/
  gap_word : ∀ b ∈ n.gap, isWord b = false

/-- The bytes of a number -/
def Numeral.bytes (n : Numeral) : List UInt8 := Scan.natText n.value ++ n.gap

/-- **A round** reads the next number. -/
theorem ReadFile.word_numeral {n : Numeral} (hn : n.Apart) {lead : List UInt8}
    (hlead : ∀ b ∈ lead, isWord b = false) (rest : List UInt8) :
    (ReadFile.mk (lead ++ (n.bytes ++ rest)) false).skip.word =
      (Scan.natText n.value, ⟨n.gap ++ rest, false⟩) := by
  obtain ⟨b, gap, hgap⟩ := List.exists_cons_of_ne_nil hn.gap_ne_nil
  obtain ⟨d, ds, hds⟩ := List.exists_cons_of_ne_nil (Scan.natText_ne_nil n.value)
  have hdigit : ∀ b ∈ Scan.natText n.value, isWord b = true :=
    fun b hb => isWord_of_isDigit (Scan.isDigit_natText b hb)
  have hb : isWord b = false := hn.gap_word b (by simp [hgap])
  have hskip : (ReadFile.mk (lead ++ (n.bytes ++ rest)) false).skip =
      ⟨Scan.natText n.value ++ (n.gap ++ rest), false⟩ := by
    have hdrop : (lead ++ (n.bytes ++ rest)).dropWhile (!isWord ·) =
        Scan.natText n.value ++ (n.gap ++ rest) := by
      rw [List.dropWhile_append_of_pos fun b hb => by simp [hlead b hb], Numeral.bytes,
        List.append_assoc, hds, List.cons_append, List.dropWhile_cons_of_neg]
      simp [hdigit d (by simp [hds])]
    simp [ReadFile.skip, hdrop, hds]
  have htake : ((Scan.natText n.value ++ (n.gap ++ rest)).takeWhile isWord).take 100 =
      Scan.natText n.value := by
    rw [List.takeWhile_append_of_pos hdigit, hgap, List.cons_append,
      List.takeWhile_cons_of_neg (by simp [hb]), List.append_nil]
    exact List.take_of_length_le (Scan.length_natText (by decide) hn.lt)
  rw [hskip, ReadFile.word]
  dsimp only
  rw [htake, List.drop_left, hgap]
  simp

/-- **The numbers** of a text are read back. -/
theorem tokenizeFile_numerals {ns : List Numeral} (hns : ∀ n ∈ ns, n.Apart) {lead : List UInt8}
    (hlead : ∀ b ∈ lead, isWord b = false) (v : List ℤ) {fuel : ℕ} (hfuel : ns.length + 2 ≤ fuel) :
    tokenizeFile fuel ⟨lead ++ ns.flatMap Numeral.bytes, false⟩ v =
      .ok (v ++ ns.map fun n => (n.value : ℤ)) := by
  induction ns generalizing lead v fuel with
  | nil =>
    obtain ⟨fuel, rfl⟩ : ∃ k, fuel = k + 2 := ⟨fuel - 2, by simp at hfuel; omega⟩
    have hdrop : lead.dropWhile (!isWord ·) = [] :=
      List.dropWhile_eq_nil_iff.mpr fun b hb => by simp [hlead b hb]
    have hskip : (ReadFile.mk lead false).skip = ⟨[], true⟩ := by
      rw [ReadFile.skip]
      simp only [hdrop]
      rfl
    rw [List.flatMap_nil, List.append_nil, tokenizeFile, if_neg Bool.false_ne_true, hskip]
    exact congrArg _ (List.append_nil v).symm
  | cons n ns ih =>
    obtain ⟨hn, hns⟩ := List.forall_mem_cons.mp hns
    obtain ⟨fuel, rfl⟩ : ∃ k, fuel = k + 1 := ⟨fuel - 1, by omega⟩
    rw [List.flatMap_cons, tokenizeFile, if_neg Bool.false_ne_true,
      ReadFile.word_numeral hn hlead]
    dsimp only
    rw [if_neg (Scan.natText_ne_nil _), atoi_natText,
      ih hns hn.gap_word _ (by simpa using hfuel), List.append_assoc]
    rfl

/-- A line of a listing -/
def Numeral.line (pid : ℕ) : Numeral := { value := pid, gap := [10] }

theorem Numeral.apart_line {pid : ℕ} (hpid : pid < 2 ^ 31) : (line pid).Apart where
  lt := hpid.trans (by decide)
  gap_ne_nil := List.cons_ne_nil _ _
  gap_word := List.forall_mem_singleton.mpr rfl

theorem listing_eq (pids : List ℕ) :
    listing pids = (pids.map Numeral.line).flatMap Numeral.bytes := by
  rw [List.flatMap_map]
  rfl

theorem length_le_length_listing (pids : List ℕ) : pids.length ≤ (listing pids).length := by
  induction pids with
  | nil => exact le_rfl
  | cons pid pids ih =>
    rw [listing, List.flatMap_cons, List.length_append, List.length_append, List.length_cons]
    rw [listing] at ih
    simp only [List.length_singleton]
    omega

/-- **A listing** is read back. -/
theorem getAllPids_listing {pids : List ℕ} (hpids : ∀ pid ∈ pids, pid < 2 ^ 31) (v : List ℤ) :
    getAllPids (some (listing pids)) v = .ok (true, v ++ pids.map Nat.cast) := by
  have hlines : ∀ n ∈ pids.map Numeral.line, n.Apart :=
    List.forall_mem_map.mpr fun pid hpid => Numeral.apart_line (hpids pid hpid)
  have hlength := length_le_length_listing pids
  have hread : tokenizeFile ((listing pids).length + 2) ⟨listing pids, false⟩ v =
      .ok (v ++ pids.map Nat.cast) := by
    have hnumerals := tokenizeFile_numerals hlines (List.forall_mem_nil _) v
      (show (pids.map Numeral.line).length + 2 ≤ (listing pids).length + 2 by
        rw [List.length_map]
        omega)
    rw [List.nil_append, ← listing_eq, List.map_map] at hnumerals
    exact hnumerals
  rw [getAllPids, hread]
  rfl

/-! ## From listing to listing -/

namespace PidMonitor

/-- The listings are of pids, each once. -/
def Listed (listings : List (Option (List ℕ))) : Prop :=
  ∀ pids, some pids ∈ listings → pids.Nodup ∧ ∀ pid ∈ pids, pid < 2 ^ 31

theorem updateFrom_listing (m : PidMonitor) {pids : Option (List ℕ)}
    (hpids : ∀ ps ∈ pids, ∀ pid ∈ ps, pid < 2 ^ 31) :
    m.updateFrom (pids.map listing) = .ok (m.update (some ((pids.getD []).map Nat.cast))) := by
  cases pids with
  | none => rfl
  | some pids =>
    rw [updateFrom, Option.map_some, getAllPids_listing (hpids pids rfl)]
    rfl

/-- What is known after some listings: the two snapshots are the last of them, sorted. -/
structure Follows (m : PidMonitor) (listings : List (Option (List ℕ))) : Prop where
  /-- each is sorted -/
  sorted : m.Sorted
  /-- the new one is the last listing -/
  newPids : ∀ pid, pid ∈ m.newPids ↔ pid ∈ lastPids listings
  /-- the old one is that before -/
  oldPids : ∀ pid, pid ∈ m.oldPids ↔ pid ∈ lastPids listings.dropLast

theorem follows_empty : empty.Follows [] where
  sorted := sorted_empty
  newPids _ := Iff.rfl
  oldPids _ := Iff.rfl

/-- **One listing more** -/
theorem Follows.updateFrom {m : PidMonitor} {listings : List (Option (List ℕ))}
    (h : m.Follows listings) {pids : Option (List ℕ)} (hpids : Listed (listings ++ [pids])) :
    ∃ m', m.updateFrom (pids.map listing) = .ok m' ∧ m'.Follows (listings ++ [pids]) := by
  have hthis : ∀ ps ∈ pids, ps.Nodup ∧ ∀ pid ∈ ps, pid < 2 ^ 31 := by
    rintro ps rfl
    exact hpids ps (List.mem_append_right _ (List.mem_singleton_self _))
  refine ⟨_, m.updateFrom_listing fun ps hps => (hthis ps hps).2, ⟨?_, fun pid => ?_, ?_⟩⟩
  · refine h.sorted.update ?_
    cases pids with
    | none => exact .nil
    | some pids => exact (hthis pids rfl).1.map Nat.cast_injective
  · rw [mem_update, lastPids, List.getLast?_concat]
    cases pids <;> rfl
  · rw [List.dropLast_concat]
    exact h.newPids

theorem follows_listings {listings : List (Option (List ℕ))} (h : Listed listings) :
    ∃ m, listings.foldlM (fun m pids => m.updateFrom (pids.map listing)) empty = .ok m ∧
      m.Follows listings := by
  induction listings using List.reverseRecOn with
  | nil => exact ⟨empty, rfl, follows_empty⟩
  | append_singleton listings pids ih =>
    obtain ⟨m, hrun, hm⟩ := ih fun ps hps => h ps (List.mem_append_left _ hps)
    obtain ⟨m', hstep, hm'⟩ := hm.updateFrom h
    refine ⟨m', ?_, hm'⟩
    rw [List.foldlM_append, hrun, ok_bind, List.foldlM_cons, hstep]
    rfl

/-- **The difference of two listings** is found, in whatever order the pids are listed: the pids
that are in the last listing and not in the one before, in their order. -/
theorem differences_of_listings (listings : List (Option (List ℕ))) (h : Listed listings) :
    ∃ m, listings.foldlM (fun m pids => m.updateFrom (pids.map listing)) empty = .ok m ∧
      m.getDifference.Pairwise (· < ·) ∧
      ∀ pid, pid ∈ m.getDifference ↔
        pid ∈ lastPids listings ∧ pid ∉ lastPids listings.dropLast := by
  obtain ⟨m, hrun, hm⟩ := follows_listings h
  refine ⟨m, hrun, hm.sorted.newPids.sublist (setDifference_sublist _ _), fun pid => ?_⟩
  rw [mem_getDifference hm.sorted, hm.newPids, hm.oldPids]

/-- 10 comes before 2 in a listing. -/
theorem differences_of_listings_two :
    ∃ m, [some [1, 10, 2], some [1, 10, 11, 2, 3]].foldlM
        (fun m pids => m.updateFrom (pids.map listing)) empty = .ok m ∧
      3 ∈ m.getDifference ∧ 11 ∈ m.getDifference ∧ 10 ∉ m.getDifference := by
  obtain ⟨m, hrun, -, hdifference⟩ := differences_of_listings
    [some [1, 10, 2], some [1, 10, 11, 2, 3]] (by simp [Listed])
  refine ⟨m, hrun, (hdifference 3).mpr (by decide), (hdifference 11).mpr (by decide), ?_⟩
  exact fun hmem => absurd ((hdifference 10).mp hmem).2 (by decide)

end PidMonitor

end WallMon
