import Reveille.Proofs.Records.Text

/-!
# The order of upserts

What upserts leave of a store depends on what their entries come to for each occurrence, and on
nothing else (`WakeupStore.upserts_congr`) : records with the same lookups are the same records
(`Records.ext_find?`), and the file is written from them. The entries of an occurrence come to the
first acknowledgment among them. Where they do not contradict each other, that is any
acknowledgment among them (`History.Unanimous.firstAck?_eq_some_iff`), so neither the order of
upserts matters nor how often each of them is made; and a wake-up without acknowledgment may come
at any time, whatever the others say (`WakeupStore.ignores_order`).
-/

namespace Reveille

/-! ## Histories that come to the same -/

namespace History

variable {h more more' : History} {user : String} {i : Instant} {a : Acknowledgment}

/-- The entries of an occurrence that carry an acknowledgment carry the same one. -/
def Unanimous (h : History) : Prop :=
  ∀ r ∈ h, ∀ r' ∈ h, r'.IsOf r.user r.wakeup.alarmInstant → r.wakeup.isAcknowledged = true →
    r'.wakeup.isAcknowledged = true → r.wakeup.acknowledgment = r'.wakeup.acknowledgment

instance (h : History) : Decidable h.Unanimous :=
  inferInstanceAs (Decidable (∀ r ∈ h, ∀ r' ∈ h, _))

theorem firstAck?_eq_none_iff : h.firstAck? user i = none ↔
    ∀ r ∈ h, r.IsOf user i → r.wakeup.acknowledgment = none := by
  unfold firstAck?
  rw [List.findSome?_eq_none_iff]
  simp only [ite_eq_right_iff]

theorem exists_of_firstAck? (hack : h.firstAck? user i = some a) :
    ∃ r ∈ h, r.IsOf user i ∧ r.wakeup.acknowledgment = some a := by
  obtain ⟨r, hr, hack⟩ := List.exists_of_findSome?_eq_some hack
  split at hack
  · next hof => exact ⟨r, hr, hof, hack⟩
  · cases hack

/-- Where the entries agree, any acknowledgment among them is the first one. -/
theorem Unanimous.firstAck?_eq_some_iff (hall : h.Unanimous) : h.firstAck? user i = some a ↔
    ∃ r ∈ h, r.IsOf user i ∧ r.wakeup.acknowledgment = some a := by
  refine ⟨exists_of_firstAck?, ?_⟩
  rintro ⟨r, hr, ⟨rfl, rfl⟩, hack⟩
  cases hfirst : h.firstAck? r.user r.wakeup.alarmInstant with
  | none =>
    have hnone := firstAck?_eq_none_iff.mp hfirst r hr ⟨rfl, rfl⟩
    rw [hnone] at hack
    cases hack
  | some b =>
    obtain ⟨r', hr', hof, hb⟩ := exists_of_firstAck? hfirst
    have heq := hall r hr r' hr' hof (by simp [Wakeup.isAcknowledged, hack])
      (by simp [Wakeup.isAcknowledged, hb])
    rw [← hb, ← heq, hack]

/-- Histories with the same entries come to the same, where the entries agree. -/
theorem Unanimous.record?_congr (hall : h.Unanimous) (hmem : ∀ r, r ∈ h ↔ r ∈ more) :
    h.record? user i = more.record? user i := by
  have hmore : more.Unanimous := fun r hr r' hr' =>
    hall r ((hmem r).mpr hr) r' ((hmem r').mpr hr')
  have hfirst : h.firstAck? user i = more.firstAck? user i := by
    refine Option.ext fun a => ?_
    rw [hall.firstAck?_eq_some_iff, hmore.firstAck?_eq_some_iff]
    simp only [hmem]
  have hmentions : h.Mentions user i ↔ more.Mentions user i :=
    exists_congr fun r => and_congr_left' (hmem r)
  unfold record?
  simp only [hmentions, hfirst]

/-- What a history comes to tells which occurrences it mentions, and their acknowledgments. -/
theorem mentions_congr (heq : more.record? user i = more'.record? user i) :
    (more.Mentions user i ↔ more'.Mentions user i) ∧
      more.firstAck? user i = more'.firstAck? user i := by
  unfold record? at heq
  by_cases hm : more.Mentions user i <;> by_cases hm' : more'.Mentions user i
  · rw [if_pos hm, if_pos hm'] at heq
    exact ⟨iff_of_true hm hm', congrArg Wakeup.acknowledgment (Option.some.inj heq)⟩
  · rw [if_pos hm, if_neg hm'] at heq
    cases heq
  · rw [if_neg hm, if_pos hm'] at heq
    cases heq
  · exact ⟨iff_of_false hm hm',
      (firstAck?_of_not_mentions hm).trans (firstAck?_of_not_mentions hm').symm⟩

/-- Entries that come to the same can follow a history in place of each other. -/
theorem record?_append_congr (h : History) (heq : more.record? user i = more'.record? user i) :
    record? (h ++ more) user i = record? (h ++ more') user i := by
  obtain ⟨hmentions, hfirst⟩ := mentions_congr heq
  unfold record?
  simp only [mentions_append, firstAck?_append, hmentions, hfirst]

/-- Of a history that comes to nothing there is nothing. -/
theorem eq_nil_of_record? (hnone : ∀ user i, h.record? user i = none) : h = [] := by
  cases h with
  | nil => rfl
  | cons r h =>
    have hm : Mentions (r :: h) r.user r.wakeup.alarmInstant := ⟨r, List.mem_cons_self, rfl, rfl⟩
    obtain ⟨w, hw⟩ := exists_record? hm
    rw [hnone] at hw
    cases hw

/-- An entry without acknowledgment comes to the same wherever it stands. -/
theorem record?_append_cons {before after : History} {r : Record}
    (hr : r.wakeup.acknowledgment = none) :
    record? (before ++ r :: after) user i = record? (r :: (before ++ after)) user i := by
  have hmentions : Mentions (before ++ r :: after) user i ↔
      Mentions (r :: (before ++ after)) user i := by
    unfold Mentions
    simp only [List.perm_middle.mem_iff]
  have hskip : ∀ l : History, firstAck? (r :: l) user i = l.firstAck? user i := by
    intro l
    unfold firstAck?
    rw [List.findSome?_cons, hr, ite_self]
  unfold record?
  simp only [hmentions, firstAck?_append, hskip]

end History

/-! ## Records with the same lookups -/

theorem Records.ext_find? {rs rs' : Records}
    (h : ∀ user i, rs.find? user i = rs'.find? user i) : rs = rs' := by
  have hnodup : ∀ rs : Records, rs.toList.Nodup := by
    refine fun rs => rs.ordered.imp ?_
    rintro r _ hlt rfl
    exact Record.Before.irrefl r hlt
  have hmem : ∀ r, r ∈ rs.toList ↔ r ∈ rs'.toList := by
    intro r
    have hlookup : ∀ rs : Records, r ∈ rs.toList ↔
        rs.find? r.user r.wakeup.alarmInstant = some r.wakeup :=
      fun rs => find?_eq_some_iff.trans (and_iff_right rfl) |>.symm
    rw [hlookup, hlookup, h]
  have hlist : rs.toList = rs'.toList :=
    ((List.perm_ext_iff_of_nodup (hnodup rs) (hnodup rs')).mpr hmem).eq_of_pairwise
      (fun r _ _ _ hlt hgt => absurd (hlt.trans hgt) (Record.Before.irrefl r))
      rs.ordered rs'.ordered
  cases rs
  cases rs'
  simp_all

/-! ## Upserts -/

namespace Upsert

/-- What an upsert adds to the history of a store, if its file is written. -/
def entry? (u : Upsert) : Option Record :=
  match u.write with
  | .ok () => some ⟨u.user, u.wakeup⟩
  | .error _ => none

/-- What upserts add to the history of a store. -/
def entries (us : List Upsert) : History := us.filterMap entry?

theorem mem_entries_iff {us : List Upsert} {r : Record} :
    r ∈ entries us ↔ ⟨r.user, r.wakeup, .ok ()⟩ ∈ us := by
  unfold entries
  rw [List.mem_filterMap]
  constructor
  · rintro ⟨⟨user, w, write⟩, hu, hentry⟩
    cases write with
    | ok _ =>
      cases hentry
      exact hu
    | error fault => cases hentry
  · exact fun hu => ⟨_, hu, rfl⟩

end Upsert

namespace WakeupStore

open Upsert (entries)

variable {s : WakeupStore} {us vs : List Upsert}

theorem accepted_eq_entries : ∀ (us : List Upsert) (s : WakeupStore), s.accepted us = entries us
  | [], _ => rfl
  | ⟨user, w, .ok ()⟩ :: us, s => congrArg (_ :: ·) (accepted_eq_entries us (s.merge user w).flush)
  | ⟨user, w, .error fault⟩ :: us, s => by
    have hmake : s.make ⟨user, w, .error fault⟩ = (.error (.file s.path fault), s) :=
      s.upsert_unwritten user w fault
    unfold accepted
    rw [hmake]
    exact accepted_eq_entries us s

/-- Records to which upserts are made are what their entries and those of the upserts come to. -/
theorem find?_upserts (s : WakeupStore) (us : List Upsert) (user : String) (i : Instant) :
    (s.upserts us).records.find? user i =
      History.record? (s.records.toList ++ entries us) user i := by
  rw [records_upserts us s.records.ofList_toList.symm, accepted_eq_entries, Records.find?_ofList]

theorem path_upserts : ∀ (us : List Upsert) (s : WakeupStore), (s.upserts us).path = s.path
  | [], _ => rfl
  | u :: us, s => by
    unfold upserts
    rw [path_upserts us]
    obtain ⟨-, hmake⟩ | ⟨fault, -, hmake⟩ := s.make_cases u
    · rw [hmake]
      rfl
    · rw [hmake]

theorem upserts_of_entries_eq_nil : ∀ {us : List Upsert}, entries us = [] → s.upserts us = s
  | [], _ => rfl
  | ⟨user, w, .error fault⟩ :: us, h => by
    have hmake : s.make ⟨user, w, .error fault⟩ = (.error (.file s.path fault), s) :=
      s.upsert_unwritten user w fault
    unfold upserts
    rw [hmake]
    exact upserts_of_entries_eq_nil h

/-- The file holds the records once it has been written. -/
theorem file_upserts : ∀ {us : List Upsert} {s : WakeupStore},
    s.file = some s.records.fileText ∨ entries us ≠ [] →
      (s.upserts us).file = some (s.upserts us).records.fileText
  | [], _, h => h.resolve_right fun hne => hne rfl
  | ⟨user, w, .ok ()⟩ :: us, s, _ => @file_upserts us (s.merge user w).flush (.inl rfl)
  | ⟨user, w, .error fault⟩ :: us, s, h => by
    have hmake : s.make ⟨user, w, .error fault⟩ = (.error (.file s.path fault), s) :=
      s.upsert_unwritten user w fault
    unfold upserts
    rw [hmake]
    exact file_upserts h

/-- Upserts whose entries come to the same leave the same store. -/
theorem upserts_congr (h : ∀ user i, (entries us).record? user i = (entries vs).record? user i) :
    s.upserts us = s.upserts vs := by
  have hrecords : (s.upserts us).records = (s.upserts vs).records := by
    refine Records.ext_find? fun user i => ?_
    rw [find?_upserts, find?_upserts]
    exact History.record?_append_congr _ (h user i)
  have hfile : (s.upserts us).file = (s.upserts vs).file := by
    by_cases hus : entries us = []
    · have hvs : entries vs = [] := by
        refine History.eq_nil_of_record? fun user i => ?_
        rw [← h, hus]
        rfl
      rw [upserts_of_entries_eq_nil hus, upserts_of_entries_eq_nil hvs]
    · have hvs : entries vs ≠ [] := by
        intro hvs
        refine hus (History.eq_nil_of_record? fun user i => ?_)
        rw [h, hvs]
        rfl
      rw [file_upserts (.inr hus), file_upserts (.inr hvs), hrecords]
  have hpath : (s.upserts us).path = (s.upserts vs).path := by
    rw [path_upserts, path_upserts]
  generalize s.upserts us = t at *
  generalize s.upserts vs = t' at *
  cases t
  cases t'
  simp_all

/-! ## The theorem -/

/-- Two lists of upserts of which the same ones are written, in whatever order and however often
each of them, leave a store the same, its records and the text of its file, if the acknowledgments
that are written for one occurrence are all the same. An upsert without acknowledgment, such as that
of a wake-up that could not be saved when it rang, leaves the store the same whether it comes first
or later, whatever the upserts before and after it say and whichever of all these are written. None
of the upserts that are written is lost : the records are what the entries from before and those of
these upserts come to. -/
theorem ignores_order (s : WakeupStore) :
    (∀ us vs : List Upsert, (∀ u, u.write = .ok () → (u ∈ us ↔ u ∈ vs)) →
        (Upsert.entries us).Unanimous → s.upserts us = s.upserts vs) ∧
      (∀ before late after, late.wakeup.acknowledgment = none →
        s.upserts (before ++ late :: after) = s.upserts (late :: (before ++ after))) ∧
      ∀ us user i, (s.upserts us).records.find? user i =
        History.record? (s.records.toList ++ Upsert.entries us) user i := by
  refine ⟨fun us vs hsame hacks => ?_, fun before late after hlate => ?_, s.find?_upserts⟩
  · refine upserts_congr fun user i => hacks.record?_congr fun r => ?_
    rw [Upsert.mem_entries_iff, Upsert.mem_entries_iff]
    exact hsame _ rfl
  · refine upserts_congr fun user i => ?_
    obtain ⟨owner, w, write⟩ := late
    unfold entries
    rw [List.filterMap_append, List.filterMap_cons, List.filterMap_cons, List.filterMap_append]
    cases write with
    | ok _ => exact History.record?_append_cons hlate
    | error fault => rfl

/-- A wake-up that rings at a minute past midnight, its acknowledgment, and a write that fails : the
wake-up may come last and the acknowledgment twice. It may even come between two acknowledgments
that contradict each other. -/
theorem ignores_order_late :
    let minute : Instant := ⟨60, 0, by decide, by decide, by decide, by decide⟩
    let s : WakeupStore := ⟨"wakeups", .ofList [⟨"ada", .pending .epoch⟩], none⟩
    let rings : Upsert := ⟨"ada", .pending minute, .ok ()⟩
    let first : Upsert := ⟨"ada", ⟨minute, some ⟨minute, some "photo"⟩⟩, .ok ()⟩
    let second : Upsert := ⟨"ada", ⟨minute, some ⟨minute, none⟩⟩, .ok ()⟩
    let fails : Upsert := ⟨"bob", .pending .epoch, .error .isDirectory⟩
    (Upsert.entries [rings, first]).Unanimous ∧
      s.upserts [rings, first] = s.upserts [first, fails, first, rings] ∧
      ¬ (Upsert.entries [first, rings, second]).Unanimous ∧
      s.upserts [first, rings, second] = s.upserts [rings, first, second] ∧
      (s.upserts [first, rings, second]).latest? "ada" =
        some ⟨minute, some ⟨minute, some "photo"⟩⟩ := by
  intro minute s rings first second fails
  have hall : (Upsert.entries [rings, first]).Unanimous := by decide
  refine ⟨hall, ?_, by decide, ?_, by decide⟩
  · refine s.ignores_order.1 [rings, first] _ (fun u hu => ?_) hall
    have hfails : u ≠ fails := by
      rintro rfl
      cases hu
    simp [hfails, or_comm]
  · exact s.ignores_order.2.1 [first] rings [second] rfl

end WakeupStore

end Reveille
