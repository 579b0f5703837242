import Reveille.Proofs.Records

/-!
# The history of a store

What a store holds is told by its history, the records of the file that it was opened on and then
the wake-ups of the upserts that succeeded : there is a record of an occurrence if the history has
an entry of it, and its acknowledgment is the first one among these entries (`History.record?`).
Joining records one after the other comes to the same (`Records.find?_ofList`), and upserts only
append to the history (`WakeupStore.records_upserts`). So whatever happens to its file, a store
follows its history (`WakeupStore.follows_history`).
-/

namespace Reveille

/-! ## Histories -/

/-- Records in the order in which they came, several of one occurrence among them. -/
abbrev History := List Record

namespace History

variable {h more : History} {user : String} {i : Instant} {r : Record} {a : Acknowledgment}

/-- The history has an entry of the occurrence. -/
def Mentions (h : History) (user : String) (i : Instant) : Prop := ∃ r ∈ h, r.IsOf user i

instance (h : History) (user : String) (i : Instant) : Decidable (h.Mentions user i) :=
  inferInstanceAs (Decidable (∃ r ∈ h, _))

/-- The first acknowledgment among the entries of the occurrence. -/
def firstAck? (h : History) (user : String) (i : Instant) : Option Acknowledgment :=
  h.findSome? fun r => if r.IsOf user i then r.wakeup.acknowledgment else none

/-- What the history comes to for one occurrence. -/
def record? (h : History) (user : String) (i : Instant) : Option Wakeup :=
  if h.Mentions user i then some ⟨i, h.firstAck? user i⟩ else none

/-- The occurrence is the last one among those that the history mentions of the user. -/
def IsLatest (h : History) (user : String) (i : Instant) : Prop :=
  h.Mentions user i ∧ ∀ j, h.Mentions user j → j ≤ i

theorem mentions_append :
    (h ++ more).Mentions user i ↔ h.Mentions user i ∨ more.Mentions user i := by
  unfold Mentions
  simp only [List.mem_append, or_and_right, exists_or]

theorem firstAck?_append :
    (h ++ more).firstAck? user i = (h.firstAck? user i).or (more.firstAck? user i) :=
  List.findSome?_append

theorem mentions_of_firstAck? (hack : h.firstAck? user i = some a) : h.Mentions user i := by
  obtain ⟨r, hr, hack⟩ := List.exists_of_findSome?_eq_some hack
  split at hack
  · next hof => exact ⟨r, hr, hof⟩
  · cases hack

theorem firstAck?_of_not_mentions (hnot : ¬ h.Mentions user i) : h.firstAck? user i = none := by
  cases hack : h.firstAck? user i with
  | none => rfl
  | some a => exact absurd (mentions_of_firstAck? hack) hnot

/-- One more entry is merged into what the history has come to. -/
theorem record?_concat (h : History) (r : Record) (user : String) (i : Instant) :
    (h ++ [r]).record? user i =
      if r.IsOf user i then
        some (match h.record? user i with
          | some stored => stored.merge r.wakeup
          | none => r.wakeup)
      else h.record? user i := by
  unfold record?
  rw [firstAck?_append]
  by_cases hof : r.IsOf user i
  · have hlast : firstAck? [r] user i = r.wakeup.acknowledgment := by
      simp [firstAck?, hof]
    have hboth : (h ++ [r]).Mentions user i := mentions_append.mpr (.inr ⟨r, by simp, hof⟩)
    rw [if_pos hboth, if_pos hof, hlast]
    by_cases hm : h.Mentions user i
    · rw [if_pos hm]
      rfl
    · rw [if_neg hm, firstAck?_of_not_mentions hm, ← hof.2]
      rfl
  · have hlast : firstAck? [r] user i = none := by
      simp [firstAck?, hof]
    have hsame : (h ++ [r]).Mentions user i ↔ h.Mentions user i := by
      rw [mentions_append]
      simp [Mentions, hof]
    rw [if_neg hof, hlast, Option.or_none]
    simp only [hsame]

theorem mentions_of_record? {w : Wakeup} (hw : h.record? user i = some w) : h.Mentions user i := by
  unfold record? at hw
  split at hw
  · assumption
  · cases hw

theorem exists_record? (hm : h.Mentions user i) : ∃ w, h.record? user i = some w :=
  ⟨_, if_pos hm⟩

theorem record?_eq_none_iff : (∀ i, h.record? user i = none) ↔ ∀ i, ¬ h.Mentions user i := by
  unfold record?
  simp only [ite_eq_right_iff, reduceCtorEq]

theorem record?_of_firstAck? (hack : h.firstAck? user i = some a) :
    h.record? user i = some ⟨i, some a⟩ := by
  unfold record?
  rw [if_pos (mentions_of_firstAck? hack), hack]

theorem mentions_filter :
    Mentions (h.filter (·.user = user)) user i ↔ h.Mentions user i := by
  constructor
  · rintro ⟨r, hr, hof⟩
    exact ⟨r, (List.mem_filter.mp hr).1, hof⟩
  · rintro ⟨r, hr, hof⟩
    exact ⟨r, List.mem_filter.mpr ⟨hr, by simpa using hof.1⟩, hof⟩

theorem firstAck?_filter (user : String) (i : Instant) : ∀ h : History,
    firstAck? (h.filter (·.user = user)) user i = h.firstAck? user i
  | [] => rfl
  | r :: h => by
    have ih := firstAck?_filter user i h
    unfold firstAck? at ih ⊢
    by_cases hr : r.user = user
    · rw [List.filter_cons_of_pos (by simpa using hr), List.findSome?_cons, ih,
        List.findSome?_cons]
    · have hof : ¬ r.IsOf user i := fun hof => hr hof.1
      rw [List.filter_cons_of_neg (by simpa using hr), ih, List.findSome?_cons, if_neg hof]

/-- What a history comes to for a user is not touched by the entries of others. -/
theorem record?_filter (h : History) (user : String) (i : Instant) :
    record? (h.filter (·.user = user)) user i = h.record? user i := by
  unfold record?
  simp only [mentions_filter, firstAck?_filter]

end History

/-! ## Looking up records -/

namespace Records

variable {rs : Records} {user : String} {i : Instant} {w : Wakeup} {r s : Record}
  {l : List Record}

/-- In a list in order a key has one record. -/
theorem eq_of_isOf (hl : l.Pairwise Record.Before) (hr : r ∈ l) (hs : s ∈ l)
    (hof : s.IsOf r.user r.wakeup.alarmInstant) : s = r := by
  induction l with
  | nil => cases hr
  | cons t l ih =>
    obtain ⟨ht, hl⟩ := List.pairwise_cons.mp hl
    have hof' : r.IsOf s.user s.wakeup.alarmInstant := ⟨hof.1.symm, hof.2.symm⟩
    rcases List.mem_cons.mp hr with rfl | hr' <;> rcases List.mem_cons.mp hs with rfl | hs'
    · rfl
    · exact absurd hof (not_isOf_of_before (ht s hs'))
    · exact absurd hof' (not_isOf_of_before (ht r hr'))
    · exact ih hl hr' hs'

/-- The record that is looked up is the one that is kept. -/
theorem find?_eq_some_iff :
    rs.find? user i = some w ↔ w.alarmInstant = i ∧ ⟨user, w⟩ ∈ rs.toList := by
  unfold find?
  rw [Option.map_eq_some_iff]
  constructor
  · rintro ⟨r, hr, rfl⟩
    have hof : r.IsOf user i := by simpa using List.find?_some hr
    obtain ⟨rfl, rfl⟩ := hof
    exact ⟨rfl, List.mem_of_find?_eq_some hr⟩
  · rintro ⟨rfl, hmem⟩
    have hsome : (rs.toList.find? fun r => decide (r.IsOf user w.alarmInstant)).isSome = true := by
      rw [List.find?_isSome]
      exact ⟨_, hmem, by simp [Record.IsOf]⟩
    obtain ⟨r, hr⟩ := Option.isSome_iff_exists.mp hsome
    have hof : r.IsOf user w.alarmInstant := by simpa using List.find?_some hr
    have heq : r = ⟨user, w⟩ :=
      eq_of_isOf rs.ordered hmem (List.mem_of_find?_eq_some hr) hof
    exact ⟨r, hr, by rw [heq]⟩

theorem holds_iff_find? : rs.Holds user i ↔ ∃ w, rs.find? user i = some w := by
  constructor
  · rintro ⟨r, hr, rfl, rfl⟩
    exact ⟨r.wakeup, find?_eq_some_iff.mpr ⟨rfl, hr⟩⟩
  · rintro ⟨w, hw⟩
    obtain ⟨hi, hmem⟩ := find?_eq_some_iff.mp hw
    exact ⟨_, hmem, rfl, hi⟩

/-- After joining `r` the record of its key is what has been joined, and the others are as they
were. -/
theorem find?_put (user : String) (i : Instant) : ∀ {l : List Record}, l.Pairwise Record.Before →
    (put r l).find? (fun s => decide (s.IsOf user i)) =
      if r.IsOf user i then
        some (match l.find? fun s => decide (s.IsOf user i) with
          | some s => { s with wakeup := s.wakeup.merge r.wakeup }
          | none => r)
      else l.find? fun s => decide (s.IsOf user i)
  | [], _ => by by_cases hr : r.IsOf user i <;> simp [put, hr]
  | s :: rest, hl => by
    obtain ⟨hs, hrest⟩ := List.pairwise_cons.mp hl
    -- A record with the key of `r` is of the occurrence exactly if `r` is.
    have hkey : ∀ t : Record, t.IsOf r.user r.wakeup.alarmInstant →
        (t.IsOf user i ↔ r.IsOf user i) := by
      rintro t ⟨hu, hi⟩
      unfold Record.IsOf
      rw [hu, hi]
    unfold put
    by_cases hof : s.IsOf r.user r.wakeup.alarmInstant
    · have hjoined : Record.IsOf { s with wakeup := s.wakeup.merge r.wakeup } user i ↔
          s.IsOf user i := Iff.rfl
      rw [if_pos hof, List.find?_cons, List.find?_cons]
      by_cases hr : r.IsOf user i <;> simp [hjoined, hkey s hof, hr]
    rw [if_neg hof]
    by_cases hr : r.IsOf user i
    · have hnot : ∀ t : Record, ¬ t.IsOf r.user r.wakeup.alarmInstant → ¬ t.IsOf user i := by
        intro t ht hti
        exact ht ⟨hti.1.trans hr.1.symm, hti.2.trans hr.2.symm⟩
      by_cases hlt : r.Before s
      · have hnone : (s :: rest).find? (fun t => decide (t.IsOf user i)) = none := by
          rw [List.find?_eq_none]
          intro t ht
          rcases List.mem_cons.mp ht with rfl | ht
          · simpa using hnot t hof
          · simpa using hnot t (not_isOf_of_before (hlt.trans (hs t ht)))
        rw [if_pos hlt, if_pos hr, hnone]
        simp [hr]
      · rw [if_neg hlt, List.find?_cons_of_neg (by simpa using hnot s hof),
          List.find?_cons_of_neg (by simpa using hnot s hof), find?_put user i hrest, if_pos hr]
    · by_cases hlt : r.Before s
      · rw [if_pos hlt, if_neg hr, List.find?_cons_of_neg (by simpa using hr)]
      · rw [if_neg hlt, if_neg hr, List.find?_cons, List.find?_cons, find?_put user i hrest,
          if_neg hr]

/-- After joining a wake-up the record of its occurrence is what has been joined. -/
theorem find?_merge (rs : Records) (r : Record) (user : String) (i : Instant) :
    (rs.merge r.user r.wakeup).find? user i =
      if r.IsOf user i then
        some (match rs.find? user i with
          | some stored => stored.merge r.wakeup
          | none => r.wakeup)
      else rs.find? user i := by
  have h := find?_put (r := r) user i rs.ordered
  unfold find? merge
  dsimp only
  rw [h]
  by_cases hr : r.IsOf user i
  · rw [if_pos hr, if_pos hr]
    cases rs.toList.find? fun s => decide (s.IsOf user i) <;> rfl
  · rw [if_neg hr, if_neg hr]

/-- Records that are joined to what a history comes to are what the longer history comes to. -/
theorem find?_foldl_merge : ∀ (more h : History) {rs : Records},
    (∀ user i, rs.find? user i = h.record? user i) → ∀ user i,
      (more.foldl (fun rs r => rs.merge r.user r.wakeup) rs).find? user i =
        History.record? (h ++ more) user i
  | [], h, rs, hrs, user, i => by
    rw [List.append_nil]
    exact hrs user i
  | r :: more, h, rs, hrs, user, i => by
    rw [List.foldl_cons, List.append_cons]
    refine find?_foldl_merge more (h ++ [r]) (fun user i => ?_) user i
    rw [find?_merge, hrs, History.record?_concat]

/-- Records that are joined one after the other are what their history comes to. -/
theorem find?_ofList (h : History) (user : String) (i : Instant) :
    (ofList h).find? user i = h.record? user i :=
  find?_foldl_merge h [] (fun _ _ => rfl) user i

/-! ## The latest record -/

/-- In a list in order the last record comes after all others. -/
theorem before_getLast? (hl : l.Pairwise Record.Before) (hlast : l.getLast? = some r) (hs : s ∈ l) :
    s = r ∨ s.Before r := by
  obtain ⟨ys, rfl⟩ := List.getLast?_eq_some_iff.mp hlast
  rcases List.mem_append.mp hs with hs | hs
  · exact .inr ((List.pairwise_append.mp hl).2.2 s hs r (List.mem_singleton_self r))
  · exact .inl (List.mem_singleton.mp hs)

theorem latest?_eq_none_iff : rs.latest? user = none ↔ ∀ i, rs.find? user i = none := by
  unfold latest?
  rw [Option.map_eq_none_iff, List.getLast?_eq_none_iff, List.filter_eq_nil_iff]
  constructor
  · intro h i
    unfold find?
    rw [Option.map_eq_none_iff, List.find?_eq_none]
    intro r hr hof
    have hu : r.user = user := by simpa using (of_decide_eq_true hof).1
    exact h r hr (by simpa using hu)
  · intro h r hr hu
    have hfound : rs.find? user r.wakeup.alarmInstant = some r.wakeup := by
      refine find?_eq_some_iff.mpr ⟨rfl, ?_⟩
      rwa [← of_decide_eq_true hu]
    rw [h] at hfound
    cases hfound

theorem find?_latest? (h : rs.latest? user = some w) : rs.find? user w.alarmInstant = some w ∧
    ∀ j v, rs.find? user j = some v → j ≤ w.alarmInstant := by
  unfold latest? at h
  obtain ⟨r, hr, rfl⟩ := Option.map_eq_some_iff.mp h
  obtain ⟨hmem, hu⟩ := List.mem_filter.mp (List.mem_of_getLast? hr)
  obtain rfl := of_decide_eq_true hu
  refine ⟨find?_eq_some_iff.mpr ⟨rfl, hmem⟩, fun j v hv => ?_⟩
  obtain ⟨rfl, hmem'⟩ := find?_eq_some_iff.mp hv
  have hv' : (⟨r.user, v⟩ : Record) ∈ rs.toList.filter (·.user = r.user) :=
    List.mem_filter.mpr ⟨hmem', by simp⟩
  rcases before_getLast? (rs.ordered.filter _) hr hv' with heq | hlt | ⟨-, hlt⟩
  · exact heq ▸ Instant.lt_irrefl _
  · exact absurd hlt (String.lt_irrefl _)
  · exact fun hlt' => Instant.lt_irrefl _ (Instant.lt_trans hlt hlt')

/-- The latest record of a user is the one whose instant no other one passes. -/
theorem latest?_eq_some_iff : rs.latest? user = some w ↔
    rs.find? user w.alarmInstant = some w ∧
      ∀ j v, rs.find? user j = some v → j ≤ w.alarmInstant := by
  refine ⟨find?_latest?, ?_⟩
  rintro ⟨hw, hmax⟩
  cases hlatest : rs.latest? user with
  | none =>
    rw [latest?_eq_none_iff.mp hlatest] at hw
    cases hw
  | some v =>
    obtain ⟨hv, hmax'⟩ := find?_latest? hlatest
    have heq : v.alarmInstant = w.alarmInstant :=
      Instant.eq_of_not_lt (hmax' _ w hw) (hmax _ v hv)
    rw [heq, hw] at hv
    exact hv.symm

/-- The latest record is of an earlier occurrence, or there is none, if the occurrence has no record
and none passes it. -/
theorem forall_latest?_lt_iff : (∀ w ∈ rs.latest? user, w.alarmInstant < i) ↔
    rs.find? user i = none ∧ ∀ j v, rs.find? user j = some v → j ≤ i := by
  constructor
  · intro h
    have hlt : ∀ j v, rs.find? user j = some v → j < i := by
      intro j v hv
      cases hlatest : rs.latest? user with
      | none =>
        rw [latest?_eq_none_iff.mp hlatest] at hv
        cases hv
      | some w => exact Instant.lt_of_le_of_lt ((find?_latest? hlatest).2 j v hv) (h w hlatest)
    refine ⟨?_, fun j v hv hgt => Instant.lt_irrefl i (Instant.lt_trans hgt (hlt j v hv))⟩
    rw [Option.eq_none_iff_forall_ne_some]
    exact fun v hv => Instant.lt_irrefl i (hlt i v hv)
  · rintro ⟨hnone, hmax⟩ w hlatest
    obtain ⟨hw, -⟩ := find?_latest? hlatest
    refine Decidable.byContradiction fun hnot => ?_
    have heq : w.alarmInstant = i := Instant.eq_of_not_lt hnot (hmax _ w hw)
    rw [heq, hnone] at hw
    cases hw

/-- Joined one after the other, the entries of a history have as the latest record of a user what
the history comes to for the last occurrence that it mentions of the user. -/
theorem latest?_ofList {h : History} : (ofList h).latest? user = some w ↔
    h.IsLatest user w.alarmInstant ∧ h.record? user w.alarmInstant = some w := by
  rw [latest?_eq_some_iff]
  simp only [find?_ofList]
  constructor
  · rintro ⟨hw, hmax⟩
    refine ⟨⟨History.mentions_of_record? hw, fun j hj => ?_⟩, hw⟩
    obtain ⟨v, hv⟩ := History.exists_record? hj
    exact hmax j v hv
  · rintro ⟨hlast, hw⟩
    exact ⟨hw, fun j v hv => hlast.2 j (History.mentions_of_record? hv)⟩

/-- The entries of other users do not matter for the latest record of a user. -/
theorem latest?_filter (h : History) (user : String) :
    (ofList (h.filter (·.user = user))).latest? user = (ofList h).latest? user := by
  have hsame : ∀ w, (ofList (h.filter (·.user = user))).latest? user = some w ↔
      (ofList h).latest? user = some w := by
    intro w
    simp only [latest?_eq_some_iff, find?_ofList, History.record?_filter]
  exact Option.ext hsame

end Records

/-! ## Stores -/

/-- A wake-up to be joined to the records of a user, and how writing the file ends. -/
structure Upsert where
  user : String
  wakeup : Wakeup
  write : Write

namespace WakeupStore

variable {s : WakeupStore} {path : String} {content : Except FileFault String} {h : History}

/-- The reply to an upsert, and the store after it. -/
def make (s : WakeupStore) (u : Upsert) : Except StoreFault Wakeup × WakeupStore :=
  s.upsert u.user u.wakeup u.write

/-- The store after upserts, one after the other. -/
def upserts (s : WakeupStore) : List Upsert → WakeupStore
  | [] => s
  | u :: us => (s.make u).2.upserts us

/-- The entries of the upserts that have been answered with a record. -/
def accepted (s : WakeupStore) : List Upsert → History
  | [] => []
  | u :: us =>
    match s.make u with
    | (.ok _, s) => ⟨u.user, u.wakeup⟩ :: s.accepted us
    | (.error _, s) => s.accepted us

/-- The records that are found at a path, in the order of the file. -/
def found : Except FileFault String → History
  | .ok text =>
    match Records.shape.decoder.reader.parse text with
    | .ok (_, entries) => entries
    | .error _ => []
  | .error _ => []

theorem records_of_parse {text : String} {rs : Records} (h : parse text = .ok rs) :
    rs = .ofList (found (.ok text)) := by
  obtain ⟨⟨version, entries⟩, hread, h⟩ := Json.bind_eq_ok.mp h
  unfold found
  dsimp only at h ⊢
  rw [Json.mapError_eq_ok.mp hread]
  dsimp only
  split at h
  · cases h
    rfl
  · cases h

/-- A store that is opened holds what it has found. -/
theorem records_load (h : load path content = .ok s) : s.records = .ofList (found content) := by
  unfold load at h
  split at h
  · obtain ⟨rs, hrs, hs⟩ := Json.bind_eq_ok.mp h
    cases hs
    exact records_of_parse hrs
  · cases h
    rfl
  · cases h

/-- An upsert succeeds if its file is written, and otherwise leaves the store as it was. -/
theorem make_cases (s : WakeupStore) (u : Upsert) :
    (u.write = .ok () ∧
      s.make u = (.ok (s.records.joined u.user u.wakeup), (s.merge u.user u.wakeup).flush)) ∨
    ∃ fault, u.write = .error fault ∧ s.make u = (.error (.file s.path fault), s) := by
  obtain ⟨user, w, write⟩ := u
  cases write with
  | ok _ => exact .inl ⟨rfl, rfl⟩
  | error fault => exact .inr ⟨fault, rfl, s.upsert_unwritten user w fault⟩

/-- Upserts append to the history of a store. -/
theorem records_upserts : ∀ (us : List Upsert) {s : WakeupStore} {h : History},
    s.records = .ofList h → (s.upserts us).records = .ofList (h ++ s.accepted us)
  | [], s, h, hs => by
    unfold accepted
    rwa [List.append_nil]
  | u :: us, s, h, hs => by
    unfold upserts accepted
    obtain ⟨-, hmake⟩ | ⟨fault, -, hmake⟩ := s.make_cases u <;> rw [hmake]
    · have hnext : (s.merge u.user u.wakeup).flush.records =
          .ofList (h ++ [⟨u.user, u.wakeup⟩]) := by
        unfold Records.ofList at hs ⊢
        rw [List.foldl_append, ← hs]
        rfl
      rw [records_upserts us hnext, List.append_assoc]
      rfl
    · exact records_upserts us hs

/-- A store follows the history of what it was opened on and of the upserts that succeeded since :
it has a record of an occurrence exactly if the history mentions it, with the first acknowledgment
there. The latest record of a user is the one of the last occurrence mentioned of the user, and
other users do not matter for it. An upsert that succeeds is answered with what the history comes
to after it, one that fails leaves the store as it was. So an acknowledgment stays, whatever comes
after it. -/
theorem follows_history (path : String) (content : Except FileFault String) (s : WakeupStore)
    (hload : load path content = .ok s) (us : List Upsert) :
    let t := s.upserts us
    let h : History := found content ++ s.accepted us
    (∀ user i, t.records.find? user i = h.record? user i) ∧
      (∀ user, (∀ w, t.latest? user = some w ↔
          h.IsLatest user w.alarmInstant ∧ h.record? user w.alarmInstant = some w) ∧
        (t.latest? user = none ↔ ∀ i, ¬ h.Mentions user i) ∧
        t.latest? user = (Records.ofList (h.filter (·.user = user))).latest? user) ∧
      (∀ u, u.write = .ok () → ∃ stored t', t.make u = (.ok stored, t') ∧
        History.record? (h ++ [⟨u.user, u.wakeup⟩]) u.user u.wakeup.alarmInstant = some stored) ∧
      (∀ u fault, u.write = .error fault → t.make u = (.error (.file t.path fault), t)) ∧
      ∀ user i a, h.firstAck? user i = some a →
        ∀ more, (t.upserts more).records.find? user i = some ⟨i, some a⟩ := by
  intro t h
  have hall : ∀ more, (t.upserts more).records = .ofList (h ++ t.accepted more) := fun more =>
    records_upserts more (records_upserts us (records_load hload))
  have hrecords : t.records = .ofList h := by
    simpa [upserts, accepted] using hall []
  have hfind : ∀ user i, t.records.find? user i = h.record? user i := by
    rw [hrecords]
    exact Records.find?_ofList h
  refine ⟨hfind, fun user => ⟨fun w => ?_, ?_, ?_⟩, fun u hu => ?_, fun u fault hu => ?_, ?_⟩
  · unfold latest?
    rw [hrecords]
    exact Records.latest?_ofList
  · unfold latest?
    rw [Records.latest?_eq_none_iff]
    simp only [hfind, History.record?_eq_none_iff]
  · unfold latest?
    rw [hrecords]
    exact (Records.latest?_filter h user).symm
  · obtain ⟨-, hmake⟩ | ⟨fault, hfault, -⟩ := t.make_cases u
    · refine ⟨_, _, hmake, ?_⟩
      rw [History.record?_concat, if_pos ⟨rfl, rfl⟩, ← hfind]
      rfl
    · rw [hu] at hfault
      cases hfault
  · obtain ⟨hok, -⟩ | ⟨fault', hfault, hmake⟩ := t.make_cases u
    · rw [hu] at hok
      cases hok
    · rw [hu] at hfault
      cases hfault
      exact hmake
  · intro user i a hack more
    rw [hall, Records.find?_ofList]
    exact History.record?_of_firstAck? (by rw [History.firstAck?_append, hack]; rfl)

/-- A file that lists an occurrence twice, the second time acknowledged. Another acknowledgment
that comes later, a write that fails, and anything else after that leave the one of the file. -/
theorem follows_history_twice_listed :
    let minute : Instant := ⟨60, 0, by decide, by decide, by decide, by decide⟩
    let text := "\x7b\"version\":1,\"wakeups\":[" ++
      "\x7b\"user_id\":\"ada\",\"alarm_instant\":\"1970-01-01T00:00:00Z\"\x7d," ++
      "\x7b\"user_id\":\"ada\",\"alarm_instant\":\"1970-01-01T00:00:00Z\"," ++
        "\"acknowledgment\":\x7b\"ack_instant\":\"1970-01-01T00:01:00Z\"\x7d\x7d]\x7d"
    let us : List Upsert :=
      [⟨"ada", ⟨.epoch, some ⟨.epoch, none⟩⟩, .ok ()⟩,
        ⟨"bob", .pending minute, .error .isDirectory⟩]
    ∃ s, load "wakeups" (.ok text) = .ok s ∧
      ∀ more, ((s.upserts us).upserts more).records.find? "ada" .epoch =
        some ⟨.epoch, some ⟨minute, none⟩⟩ := by
  intro minute text us
  have hread : (load "wakeups" (.ok text)).toBool = true ∧
      History.firstAck? (found (.ok text)) "ada" .epoch = some ⟨minute, none⟩ := by
    decide +kernel
  obtain ⟨hok, hack⟩ := hread
  obtain ⟨s, hload⟩ : ∃ s, load "wakeups" (.ok text) = .ok s := by
    cases h : load "wakeups" (.ok text) with
    | ok s => exact ⟨s, rfl⟩
    | error fault =>
      rw [h] at hok
      cases hok
  refine ⟨s, hload, (follows_history "wakeups" (.ok text) s hload us).2.2.2.2 _ _ _ ?_⟩
  rw [History.firstAck?_append, hack]
  rfl

end WakeupStore

end Reveille
