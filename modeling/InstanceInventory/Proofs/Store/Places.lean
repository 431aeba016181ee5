import InstanceInventory.Proofs.Session
import InstanceInventory.Proofs.Text.Lines
import InstanceInventory.Store
import Mathlib.Data.List.Nodup
import Mathlib.Data.List.Perm.Subperm
import Mathlib.Data.Nat.Find
import Mathlib.Tactic.ByContra
import Mathlib.Tactic.Push

/-! # Where the files of a store stand

* `Session.site_append`: a path with one more part leads one step further.
* `Store.site_lockPath`, `Store.site_candidate`: the places of the lock and of the backups.
* `Store.exists_free`: the search for a free name ends, and gives the first name that is free.
-/

namespace InstanceInventory
set_option autoImplicit false
open Files (follow follow_append follow_cons follow_nil Place)
variable {s : Session} {st : Store}

/-! ## Paths with a last part -/

theorem Files.target_join (d q : Files.Path) :
    (d.join q).target = follow (if q.isAbsolute then [] else d.target) q.parts := by
  unfold Files.Path.join
  split
  · rfl
  · exact follow_append [] d.parts q.parts

/-- A path with one more part leads one step further. -/
theorem Session.site_append (s : Session) (slashes : Nat) (parts : List String) {name : String}
    (h : name ≠ "..") : s.site ⟨slashes, parts ++ [name]⟩ = s.site ⟨slashes, parts⟩ ++ [name] := by
  have hname : (name == "..") = false := beq_eq_false_iff_ne.2 h
  rw [site, site, locate, locate, Files.target_join, Files.target_join, follow_append, follow_cons,
    hname]
  rfl

/-- A step further, be it upward. -/
theorem Session.site_step (s : Session) (slashes : Nat) (parts : List String) (name : String) :
    s.site ⟨slashes, parts ++ [name]⟩ = follow (s.site ⟨slashes, parts⟩) [name] := by
  rw [site, site, locate, locate, Files.target_join, Files.target_join, follow_append]
  rfl

theorem Files.Path.eq_concat_name {q : Files.Path} (h : q.parts ≠ []) :
    q = ⟨q.slashes, q.parts.dropLast ++ [q.name]⟩ := by
  have hparts : q.parts.dropLast ++ [q.name] = q.parts := by
    rw [name, List.getLast?_eq_some_getLast h]
    exact List.dropLast_concat_getLast h
  rw [hparts]

/-- A path that has a name, and the paths with another name in its place. -/
theorem Files.exists_split (d : Files.Path) {q : Files.Path} (h : q.parts ≠ []) :
    ∃ slashes init, (∀ name, d.join (q.withName name) = ⟨slashes, init ++ [name]⟩) ∧
      d.join q = ⟨slashes, init ++ [q.name]⟩ := by
  have hparts : q.parts = q.parts.dropLast ++ [q.name] := congrArg Path.parts (Path.eq_concat_name h)
  by_cases habs : q.slashes = 0
  · refine ⟨d.slashes, d.parts ++ q.parts.dropLast, fun name => ?_, ?_⟩
    · simp [Files.Path.join, Files.Path.withName, Files.Path.isAbsolute, habs]
    · rw [Files.Path.join, hparts]
      simp [Files.Path.isAbsolute, habs]
  · refine ⟨q.slashes, q.parts.dropLast, fun name => ?_, ?_⟩
    · simp [Files.Path.join, Files.Path.withName, Files.Path.isAbsolute, habs]
    · simp [Files.Path.join, Files.Path.isAbsolute, habs, ← hparts]

/-- The directory of a path below another one. -/
theorem Files.join_parent {d q : Files.Path} {slashes : Nat} {init : List String} {name : String}
    (hq : q.parts ≠ []) (h : d.join q = ⟨slashes, init ++ [name]⟩) :
    d.join q.parent = ⟨slashes, init⟩ := by
  have habsolute : q.parent.isAbsolute = q.isAbsolute := rfl
  unfold Files.Path.join at h ⊢
  rw [habsolute]
  split at h
  · next hroot =>
    rw [if_pos hroot, h]
    simp [Files.Path.parent]
  · next hroot =>
    injection h with hslashes hparts
    rw [if_neg hroot, hslashes]
    have hdirectory := congrArg List.dropLast hparts
    rw [List.dropLast_append_of_ne_nil hq, List.dropLast_concat] at hdirectory
    rw [Files.Path.parent, hdirectory]

/-! ## Names -/

theorem Text.splitFrom_of_forall {p : Char → Bool} {cs : List Char} (h : ∀ c ∈ cs, p c = false)
    (piece : List Char) : Text.splitFrom p piece cs = [piece.reverse ++ cs] := by
  induction cs generalizing piece with
  | nil => simp [Text.splitFrom]
  | cons c cs ih =>
    rw [Text.splitFrom, h c (List.mem_cons_self ..), if_neg Bool.false_ne_true,
      ih (fun d hd => h d (List.mem_cons_of_mem c hd))]
    simp

/-- A text that can be the name of a file is a path of one part. -/
theorem Files.Path.ofText_name {name : String} (hslash : '/' ∉ name.toList) (hempty : name ≠ "")
    (hdot : name ≠ ".") : ofText name = ⟨0, [name]⟩ := by
  have hsplit : Text.splitWhen (· == '/') name.toList = [name.toList] :=
    Text.splitFrom_of_forall (fun c hc => by
      rw [beq_eq_false_iff_ne]
      rintro rfl
      exact hslash hc) []
  have hslashes : leadingSlashes name.toList = 0 := by
    have htake : name.toList.takeWhile (· == '/') = [] := by
      cases h : name.toList with
      | nil => rfl
      | cons c cs =>
        have hc : c ≠ '/' := fun hc => hslash (by simp [h, hc])
        simp [hc]
    simp [leadingSlashes, htake]
  simp [ofText, hsplit, hslashes, hempty, hdot]

/-- A text that can be the name of a file. -/
structure Files.IsName (name : String) : Prop where
  slash : '/' ∉ name.toList
  empty : name ≠ ""
  dot : name ≠ "."

theorem Files.IsName.child {name : String} (h : IsName name) (p : Path) :
    p.child name = ⟨p.slashes, p.parts ++ [name]⟩ := by
  rw [Path.child, Path.ofText_name h.slash h.empty h.dot]
  rfl

theorem Files.IsName.target_child {name : String} (h : IsName name) (p : Path) :
    (p.child name).target = follow p.target [name] := by
  rw [h.child, Path.target, follow_append]
  rfl

/-- A path keeps its name below a directory. -/
theorem Files.IsName.name_join {q : Path} (h : IsName q.name) (d : Path) :
    (d.join q).name = q.name := by
  have hparts : q.parts ≠ [] := fun hnil => h.empty (by rw [Path.name, hnil]; rfl)
  unfold Path.join
  split
  · rfl
  · rw [Path.name, Path.name, List.getLast?_append_of_ne_nil _ hparts]

theorem countText_eq (n : Nat) : countText n = n.repr := by
  rw [countText, integerText, integerChars, if_neg (by omega), Nat.repr_eq_ofList_toDigits]
  rfl

theorem countText_inj {m n : Nat} (h : countText m = countText n) : m = n := by
  rw [countText_eq, countText_eq, Nat.repr_eq_ofList_toDigits, Nat.repr_eq_ofList_toDigits] at h
  have hdigits := congrArg (Nat.ofDigitChars 10 · 0) (String.ofList_inj.1 h)
  simpa only [Nat.ofDigitChars_ten_toDigits] using hdigits

theorem isDigit_of_mem_countText {n : Nat} {c : Char} (h : c ∈ (countText n).toList) :
    c.isDigit = true := by
  rw [countText_eq, Nat.repr_eq_ofList_toDigits, String.toList_ofList] at h
  exact Nat.isDigit_of_mem_toDigits (by decide) (by decide) h

theorem isDigit_of_mem_twoDigits {n : Nat} {c : Char} (h : c ∈ (twoDigits n).toList) :
    c.isDigit = true := by
  unfold twoDigits at h
  split at h
  · rw [String.toList_append] at h
    rcases List.mem_append.1 h with h | h
    · obtain rfl : c = '0' := by simpa using h
      decide
    · exact isDigit_of_mem_countText h
  · exact isDigit_of_mem_countText h

/-- The stamp of a moment is made of digits and an underscore. -/
theorem Moment.slash_not_mem_stamp (m : Moment) : '/' ∉ m.stamp.toList := by
  intro h
  simp only [stamp, String.toList_append, List.mem_append] at h
  have hdigit : '/'.isDigit = true := by
    rcases h with ((((((h | h) | h) | h) | h) | h) | h)
    · exact isDigit_of_mem_countText h
    · exact isDigit_of_mem_twoDigits h
    · exact isDigit_of_mem_twoDigits h
    · exact absurd h (by decide)
    · exact isDigit_of_mem_twoDigits h
    · exact isDigit_of_mem_twoDigits h
    · exact isDigit_of_mem_twoDigits h
  exact absurd hdigit (by decide)

namespace Store

theorem named_ne (st : Store) : st.path.name ≠ "" ∧ st.path.name ≠ "." ∧
    '/' ∉ st.path.name.toList := by
  have h := st.named
  simp only [Files.Path.isNamed, Bool.and_eq_true, bne_iff_ne, Bool.not_eq_true',
    List.contains_eq_mem, decide_eq_false_iff_not] at h
  exact ⟨h.1.1, h.1.2, h.2⟩

theorem parts_ne_nil (st : Store) : st.path.parts ≠ [] := by
  intro h
  exact st.named_ne.1 (by rw [Files.Path.name, h]; rfl)

theorem path_eq (st : Store) : st.path = ⟨st.path.slashes, st.path.parts.dropLast ++ [st.path.name]⟩ :=
  Files.Path.eq_concat_name st.parts_ne_nil

/-- The place of a document whose name is not a step upward. -/
theorem site_path (s : Session) (h : st.path.name ≠ "..") :
    s.site st.path = s.site st.path.parent ++ [st.path.name] :=
  (congrArg s.site st.path_eq).trans (s.site_append st.path.slashes st.path.parts.dropLast h)

theorem site_path_up (s : Session) (h : st.path.name = "..") :
    s.site st.path = (s.site st.path.parent).dropLast := by
  have hpath := congrArg s.site st.path_eq
  rw [h] at hpath
  refine hpath.trans ?_
  rw [Session.site, Session.site, Session.locate, Session.locate, Files.target_join,
    Files.target_join, follow_append]
  rfl

/-! ## The lock -/

theorem length_lockName (name : String) :
    ("." ++ name ++ ".lock").length = name.length + 6 := by
  have h : (".".length = 1) ∧ (".lock".length = 5) := by decide
  rw [String.length_append, String.length_append, h.1, h.2]
  omega

theorem ne_of_length_lt {a b : String} (h : a.length < b.length) : b ≠ a := by
  rintro rfl
  omega

theorem lockName_ne_up (name : String) : "." ++ name ++ ".lock" ≠ ".." := by
  refine ne_of_length_lt ?_
  rw [length_lockName]
  have hup : "..".length = 2 := by decide
  omega

theorem site_lockPath (st : Store) (s : Session) :
    s.site st.lockPath = s.site st.path.parent ++ ["." ++ st.path.name ++ ".lock"] :=
  s.site_append st.path.slashes st.path.parts.dropLast (lockName_ne_up st.path.name)

/-- The lock of the document stands at another place than the document. -/
theorem site_ne_lock (st : Store) (s : Session) : s.site st.path ≠ s.site st.lockPath := by
  rw [site_lockPath]
  intro h
  by_cases hup : st.path.name = ".."
  · rw [site_path_up s hup] at h
    have h' := congrArg List.length h
    rw [List.length_dropLast, List.length_append, List.length_singleton] at h'
    omega
  · rw [site_path s hup] at h
    have h' := congrArg String.length (List.singleton_inj.1 (List.append_cancel_left h))
    rw [length_lockName] at h'
    omega

/-- One document has one lock. -/
theorem locate_lockPath {st st' : Store} {s s' : Session} (h : s.locate st.path = s'.locate st'.path) :
    s.locate st.lockPath = s'.locate st'.lockPath := by
  obtain ⟨slashes, init, hjoin, hself⟩ := Files.exists_split s.directory st.parts_ne_nil
  obtain ⟨slashes', init', hjoin', hself'⟩ := Files.exists_split s'.directory st'.parts_ne_nil
  rw [Session.locate, Session.locate, hself, hself'] at h
  obtain ⟨rfl, hparts⟩ := Files.Path.mk.inj h
  obtain ⟨rfl, hname⟩ := List.append_inj' hparts rfl
  rw [Session.locate, Session.locate, lockPath, lockPath, hjoin, hjoin', List.singleton_inj.1 hname]

/-! ## Backups -/

/-- The name of a backup among those of one moment. -/
def backupName (st : Store) (m : Moment) (number : Nat) : String :=
  st.path.name ++ ".backup." ++ m.stamp ++ if number = 0 then "" else "." ++ countText number

theorem backupName_inj {m : Moment} {i j : Nat} (h : st.backupName m i = st.backupName m j) :
    i = j := by
  have h := (String.append_right_inj _).1 h
  have hlen : ∀ n, ("." ++ countText n).length ≠ 0 := fun n => by
    rw [String.length_append, show ".".length = 1 by decide]
    omega
  split at h
  · split at h
    · omega
    · exact absurd (congrArg String.length h).symm (hlen j)
  · split at h
    · exact absurd (congrArg String.length h) (hlen i)
    · exact countText_inj ((String.append_right_inj _).1 h)

theorem length_backupName (st : Store) (m : Moment) (number : Nat) :
    st.path.name.length + 8 ≤ (st.backupName m number).length := by
  have h : ".backup.".length = 8 := by decide
  rw [backupName, String.length_append, String.length_append, String.length_append, h]
  omega

theorem backupName_ne_up (st : Store) (m : Moment) (number : Nat) :
    st.backupName m number ≠ ".." := by
  have hlen := st.length_backupName m number
  have hup : "..".length = 2 := by decide
  exact ne_of_length_lt (by omega)

theorem backupBase_eq (st : Store) (m : Moment) :
    st.backupBase m =
      ⟨st.backupDirectory.slashes, st.backupDirectory.parts ++ [st.backupName m 0]⟩ := by
  have hname : st.path.name ++ ".backup." ++ m.stamp = st.backupName m 0 := by
    simp [backupName]
  have hlen := st.length_backupName m 0
  rw [backupBase, hname, Files.Path.child, Files.Path.ofText_name]
  · rfl
  · rw [← hname]
    simp only [String.toList_append, List.mem_append, not_or]
    exact ⟨⟨st.named_ne.2.2, by decide⟩, m.slash_not_mem_stamp⟩
  · refine ne_of_length_lt ?_
    have : "".length = 0 := by decide
    omega
  · refine ne_of_length_lt ?_
    have : ".".length = 1 := by decide
    omega

/-- A backup stands under its name in the directory of the backups. -/
theorem candidate_eq (st : Store) (m : Moment) (number : Nat) :
    candidate (st.backupBase m) number =
      ⟨st.backupDirectory.slashes, st.backupDirectory.parts ++ [st.backupName m number]⟩ := by
  rw [candidate, backupBase_eq]
  split
  · next h => rw [h]
  · next h => simp [Files.Path.withName, Files.Path.name, backupName, h, String.append_assoc]

theorem site_candidate (st : Store) (s : Session) (m : Moment) (number : Nat) :
    s.site (candidate (st.backupBase m) number) =
      s.site st.backupDirectory ++ [st.backupName m number] := by
  rw [candidate_eq]
  exact s.site_append _ _ (st.backupName_ne_up m number)

/-- No backup stands at the place of the lock. -/
theorem site_candidate_ne_lock (st : Store) (s : Session) (m : Moment) (number : Nat) :
    s.site (candidate (st.backupBase m) number) ≠ s.site st.lockPath := by
  rw [site_candidate, site_lockPath]
  intro h
  have hlast := (List.append_inj' h rfl).2
  have h' := congrArg String.length (List.singleton_inj.1 hlast)
  have hlen := st.length_backupName m number
  rw [length_lockName] at h'
  omega

/-! ## The search for a free name -/

/-- Whether something stands at the path of a backup. -/
def isTaken (st : Store) (s : Session) (number : Nat) : Except FileFault Bool :=
  s.files.isThere (s.locate (candidate (st.backupBase s.moment) number))

/-- The search for a free name ends: no more names are taken than there are entries. -/
theorem exists_first_free (st : Store) (s : Session) :
    ∃ n ≤ s.files.entries.length, (∀ m < n, st.isTaken s m = .ok true) ∧
      st.isTaken s n ≠ .ok true := by
  classical
  have hsites : ((List.range (s.files.entries.length + 1)).map fun n =>
      s.site (candidate (st.backupBase s.moment) n)).Nodup := by
    refine List.Nodup.map (fun i j hij => ?_) List.nodup_range
    rw [site_candidate, site_candidate] at hij
    exact backupName_inj (List.singleton_inj.1 (List.append_cancel_left hij))
  have hsome : ∃ n, st.isTaken s n ≠ .ok true ∧ n ≤ s.files.entries.length := by
    by_contra! hall
    have hsub : ((List.range (s.files.entries.length + 1)).map fun n =>
        s.site (candidate (st.backupBase s.moment) n)) ⊆ s.files.entries.map Prod.fst := by
      intro p hp
      obtain ⟨n, hn, rfl⟩ := List.mem_map.1 hp
      have htaken : st.isTaken s n = .ok true := by
        by_contra hfree
        have hlt := hall n hfree
        have hle := List.mem_range.1 hn
        omega
      obtain ⟨node, hnode⟩ := Files.Tree.node?_of_isThere htaken
      refine Files.Tree.mem_of_node? hnode fun hroot => ?_
      have hsite : s.site (candidate (st.backupBase s.moment) n) = [] := hroot
      rw [site_candidate] at hsite
      simp at hsite
    have hlen := (hsites.subperm hsub).length_le
    rw [List.length_map, List.length_map, List.length_range] at hlen
    omega
  have hfirst : ∃ n, st.isTaken s n ≠ .ok true := hsome.imp fun _ h => h.1
  refine ⟨Nat.find hfirst, ?_, fun m hm => not_not.1 (Nat.find_min hfirst hm), Nat.find_spec hfirst⟩
  obtain ⟨n, hfree, hle⟩ := hsome
  exact (Nat.find_min' hfirst hfree).trans hle

theorem freeFrom_eq {isTaken : Files.Path → Except FileFault Bool} {base : Files.Path}
    {number further n : Nat} (hle : number ≤ n) (hn : n ≤ number + further)
    (htaken : ∀ m < n, isTaken (candidate base m) = .ok true) {p : Files.Path}
    (hfree : isTaken (candidate base n) ≠ .ok true)
    (h : freeFrom isTaken base number further = .ok p) :
    p = candidate base n ∧ (n < number + further → isTaken (candidate base n) = .ok false) := by
  induction further generalizing number with
  | zero =>
    obtain rfl : number = n := by omega
    exact ⟨(Except.ok.inj h).symm, fun hlt => absurd hlt (by omega)⟩
  | succ further ih =>
    rw [freeFrom] at h
    rcases Nat.lt_or_ge number n with hlt | hge
    · rw [htaken number hlt] at h
      obtain ⟨hp, hfalse⟩ := ih (Nat.succ_le_of_lt hlt) (by omega) h
      exact ⟨hp, fun hlt => hfalse (by omega)⟩
    · obtain rfl : number = n := by omega
      cases hat : isTaken (candidate base number) with
      | error e =>
        rw [hat] at h
        cases h
      | ok there =>
        cases there with
        | true => exact absurd hat hfree
        | false =>
          rw [hat] at h
          exact ⟨(Except.ok.inj h).symm, fun _ => rfl⟩

/-- The name that is found is that of a backup, and nothing stands there if the path leads to a
place at all. -/
theorem freeName_ok {p : Files.Path} (h : freeName (st.backupBase s.moment) s = .ok p) :
    ∃ n ≤ s.files.entries.length, p = candidate (st.backupBase s.moment) n ∧
      (∀ m < n, st.isTaken s m = .ok true) ∧
      (s.files.place (s.locate p) = .ok (s.site p) → s.files.node? (s.site p) = none) := by
  obtain ⟨n, hn, htaken, hfree⟩ := st.exists_first_free s
  obtain ⟨rfl, -⟩ := freeFrom_eq (Nat.zero_le n) (by omega) htaken hfree h
  refine ⟨n, hn, rfl, htaken, fun hplace => ?_⟩
  by_contra hnode
  obtain ⟨node, hnode⟩ := Option.ne_none_iff_exists'.1 hnode
  exact hfree (Files.Tree.isThere_of_node? hplace hnode)

end Store
end InstanceInventory
