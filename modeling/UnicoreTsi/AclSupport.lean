/-
# UnicoreTsi.AclSupport — which ACLs the file system of a path supports.

The configuration has a value for some directories, and a path is to get that of the nearest of them at or above it
(`MostSpecific`).  `check_support` uses the directories as regular expressions and takes the value of the one that
matches most of the path, so what matters is whether the value of the nearest directory outranks every other value
(`Decides`): `check_support_iff` is about every order of the configuration.  Directories without special characters
still match the beginning of a name, which `decides_literal_iff` makes precise.
-/
import Mathlib.Data.List.MinMax
import UnicoreTsi.Acl
import UnicoreTsi.UserCache
import UnicoreTsi.Lib.KeyedMax

set_option autoImplicit false

namespace UnicoreTsi.Acl

open UnicoreTsi.Text UnicoreTsi.Effects UnicoreTsi.Utils UnicoreTsi.Connector

/-! ## Directories and what lies under them -/

/-- The names on a path. -/
def components (path : Str) : List Str := (path.splitOn '/').filter (· ≠ [])

/-- The absolute path with these names. -/
def absPath (names : List Str) : Str := if names = [] then ['/'] else names.flatMap ('/' :: ·)

/-- A name in a directory. -/
def IsName (name : Str) : Prop :=
  name ≠ [] ∧ name ≠ ".".toList ∧ name ≠ "..".toList ∧ '/' ∉ name ∧ '\n' ∉ name ∧ '\x00' ∉ name

instance : DecidablePred IsName := fun _ => inferInstanceAs (Decidable (_ ∧ _))

/-- An absolute, normalized path. -/
def Normal (path : Str) : Prop := absPath (components path) = path ∧ ∀ name ∈ components path, IsName name

instance : DecidablePred Normal := fun _ => inferInstanceAs (Decidable (_ ∧ _))

/-- The directory is the path, or above it. -/
def Under (dir path : Str) : Prop := components dir <+: components path

instance (dir path : Str) : Decidable (Under dir path) := inferInstanceAs (Decidable (_ <+: _))

/-- The value of the nearest configured directory at or above the path. -/
def MostSpecific (acl : List (Str × Str)) (path v : Str) : Prop :=
  (∃ dir, (dir, v) ∈ acl ∧ Under dir path ∧
    ∀ e ∈ acl, Under e.1 path → (components e.1).length ≤ (components dir).length) ∨
  (v = "NONE".toList ∧ ∀ e ∈ acl, ¬Under e.1 path)

/-- The configuration has one value for each of its directories. -/
structure IsDirMap (acl : List (Str × Str)) : Prop where
  nodup : (acl.map Prod.fst).Nodup
  normal : ∀ e ∈ acl, Normal e.1

section Directories

variable {acl : List (Str × Str)} {path dir dir' v w : Str}

theorem absPath_cons (name : Str) (names : List Str) : absPath (name :: names) = (name :: names).flatMap ('/' :: ·) :=
  if_neg (List.cons_ne_nil _ _)

theorem Normal.head (h : Normal path) : path.head? = some '/' := by
  rw [← h.1]
  cases components path with
  | nil => rfl
  | cons name names => rw [absPath_cons]; rfl

/-- Two directories with the same names are the same. -/
theorem Normal.ext (h : Normal dir) (h' : Normal dir') (hnames : components dir = components dir') : dir = dir' := by
  rw [← h.1, ← h'.1, hnames]

/-- Of two directories above a path, the one with fewer names has the shorter text. -/
theorem absPath_length_lt {names more : List Str} (hnames : ∀ name ∈ more, name ≠ []) (hmore : more ≠ []) :
    (absPath names).length < (absPath (names ++ more)).length := by
  obtain ⟨name, rest, rfl⟩ := List.exists_cons_of_ne_nil hmore
  have hlong : 1 < ((name :: rest).flatMap ('/' :: ·)).length := by
    have hname := List.length_pos_iff.mpr (hnames name List.mem_cons_self)
    rw [List.flatMap_cons, List.length_append, List.length_cons]
    omega
  cases names with
  | nil =>
      rw [List.nil_append, absPath_cons]
      exact hlong
  | cons first names =>
      rw [List.cons_append, absPath_cons, absPath_cons, ← List.cons_append, List.flatMap_append, List.length_append]
      omega

/-- What lies under a directory starts with its text. -/
theorem Under.text (hdir : Normal dir) (hpath : Normal path) (h : Under dir path) : dir <+: path := by
  cases hnames : components dir with
  | nil =>
      -- the root is the one directory whose text ends with the separator
      have hroot : dir = ['/'] := by rw [← hdir.1, hnames]; rfl
      obtain ⟨rest, hrest⟩ := List.head?_eq_some_iff.mp hpath.head
      exact ⟨rest, by rw [hroot, hrest]; rfl⟩
  | cons name names =>
      obtain ⟨rest, hrest⟩ := h
      rw [← hdir.1, ← hpath.1, ← hrest, hnames, List.cons_append, absPath_cons, absPath_cons, ← List.cons_append,
        List.flatMap_append]
      exact List.prefix_append _ _

/-- Of two directories at or above a path, the further one has the shorter text. -/
theorem Under.length_lt (hdir : Normal dir) (hdir' : Normal dir') (h : Under dir path) (h' : Under dir' path)
    (hlt : (components dir).length < (components dir').length) : dir.length < dir'.length := by
  obtain ⟨more, hmore⟩ := List.prefix_of_prefix_length_le h h' hlt.le
  rw [← hdir.1, ← hdir'.1, ← hmore]
  refine absPath_length_lt ?_ ?_
  · intro name hname
    exact (hdir'.2 name (hmore ▸ List.mem_append_right _ hname)).1
  · rintro rfl
    rw [List.append_nil] at hmore
    exact absurd (congrArg List.length hmore) hlt.ne

theorem IsDirMap.value_eq (h : IsDirMap acl) (hv : (dir, v) ∈ acl) (hw : (dir, w) ∈ acl) : v = w :=
  Option.some.inj ((KeyedMax.lookup_of_mem h.nodup hv).symm.trans (KeyedMax.lookup_of_mem h.nodup hw))

/-- Every path has one value. -/
theorem mostSpecific_unique (hacl : IsDirMap acl) (hv : MostSpecific acl path v) (hw : MostSpecific acl path w) :
    v = w := by
  rcases hv with ⟨dir, hdir, hunder, hlongest⟩ | ⟨rfl, hnone⟩
  · -- two nearest directories have equally many names, and both are beginnings of those of the path
    rcases hw with ⟨dir', hdir', hunder', hlongest'⟩ | ⟨-, hnone⟩
    · have hlength : (components dir).length = (components dir').length :=
        Nat.le_antisymm (hlongest' _ hdir hunder) (hlongest _ hdir' hunder')
      have hnames : components dir = components dir' :=
        (List.prefix_of_prefix_length_le hunder hunder' hlength.le).eq_of_length hlength
      obtain rfl := (hacl.normal _ hdir).ext (hacl.normal _ hdir') hnames
      exact hacl.value_eq hdir hdir'
    · exact absurd hunder (hnone _ hdir)
  · rcases hw with ⟨dir', hdir', hunder', -⟩ | ⟨rfl, -⟩
    · exact absurd hunder' (hnone _ hdir')
    · rfl

theorem mostSpecific_exists (acl : List (Str × Str)) (path : Str) : ∃ v, MostSpecific acl path v := by
  let above := acl.filter fun e => (components e.1).isPrefixOf (components path)
  have habove : ∀ e, e ∈ above ↔ e ∈ acl ∧ Under e.1 path := by
    intro e
    rw [List.mem_filter, List.isPrefixOf_iff_prefix]
    rfl
  cases hm : above.argmax fun e => (components e.1).length with
  | none =>
      refine ⟨_, Or.inr ⟨rfl, fun e he hunder => ?_⟩⟩
      have hmem := (habove e).mpr ⟨he, hunder⟩
      rw [List.argmax_eq_none.mp hm] at hmem
      cases hmem
  | some m =>
      obtain ⟨hmem, hunder⟩ := (habove m).mp (List.argmax_mem hm)
      refine ⟨m.2, Or.inl ⟨m.1, hmem, hunder, fun e he h => ?_⟩⟩
      exact List.le_of_mem_argmax (f := fun e : Str × Str => (components e.1).length) ((habove e).mpr ⟨he, h⟩) hm

end Directories

/-! ## What the code decides -/

/-- A host that matches patterns without special characters. -/
def plainHost : Host :=
  { calmHost UserDb.empty.cache with
    reMatch := fun pattern text =>
      .ok (if pattern.tail.isPrefixOf text then some (pattern.length - 1) else none) }

section Support

variable {host : Host} {acl : List (Str × Str)} {path v : Str}

/-- How much of the path a directory matches as a regular expression. -/
def matchLength (host : Host) (path dir : Str) : ℕ :=
  match host.reMatch ('^' :: dir) path with
  | .ok (some n) => n
  | _ => 0

/-- Every directory is a regular expression. -/
def Compiles (host : Host) (path : Str) (acl : List (Str × Str)) : Prop :=
  ∀ e ∈ acl, ∃ m, host.reMatch ('^' :: e.1) path = .ok m

/-- `check_support` scans the entries for the longest match. -/
theorem bestMatch_eq (hcompiles : Compiles host path acl) (size : ℕ) (best : Str) :
    bestMatch host path acl size best =
      .ok (KeyedMax.scan (fun e => matchLength host path e.1) Prod.snd acl size best) := by
  induction acl generalizing size best with
  | nil => rfl
  | cons e rest ih =>
      obtain ⟨dir, w⟩ := e
      obtain ⟨m, hm⟩ := hcompiles (dir, w) List.mem_cons_self
      have hrest := ih fun e he => hcompiles e (List.mem_cons_of_mem _ he)
      have hlength : matchLength host path dir = m.getD 0 := by
        rw [matchLength, hm]
        cases m <;> rfl
      rw [bestMatch, KeyedMax.scan, hm, hlength]
      cases m with
      | none => exact hrest size best
      | some n =>
          dsimp only [Option.getD_some]
          split
          · exact hrest n w
          · exact hrest size best

/-- A directory that is no regular expression stops the search. -/
theorem compiles_of_bestMatch {size : ℕ} {best : Str} (h : bestMatch host path acl size best = .ok v) :
    Compiles host path acl := by
  induction acl generalizing size best with
  | nil => exact nofun
  | cons e rest ih =>
      obtain ⟨dir, w⟩ := e
      rw [bestMatch] at h
      cases hm : host.reMatch ('^' :: dir) path with
      | error e =>
          rw [hm] at h
          cases h
      | ok m =>
          rw [hm] at h
          -- whether the entry is kept or not, the search goes on behind it
          have hrest : Compiles host path rest := by
            cases m with
            | none => exact ih h
            | some n =>
                dsimp only at h
                split at h
                · exact ih h
                · exact ih h
          exact List.forall_mem_cons.mpr ⟨⟨m, hm⟩, hrest⟩

/-- The value outranks the others: every directory is a regular expression, one with another value that matches a part
of the path matches less of it than one with this value, and one with this value does match, unless it is `NONE`. -/
structure Decides (host : Host) (acl : List (Str × Str)) (path v : Str) : Prop where
  compiles : Compiles host path acl
  outranks : ∀ e ∈ acl, 0 < matchLength host path e.1 → e.2 ≠ v →
    ∃ e' ∈ acl, e'.2 = v ∧ matchLength host path e.1 < matchLength host path e'.1
  found : v = "NONE".toList ∨ ∃ e ∈ acl, e.2 = v ∧ 0 < matchLength host path e.1

/-- In every order of the configuration the search ends with the value, if it outranks the others. -/
theorem bestMatch_perm_iff :
    (∀ acl' : List (Str × Str), acl'.Perm acl → bestMatch host path acl' 0 "NONE".toList = .ok v) ↔
      Decides host acl path v := by
  have hscan := KeyedMax.scan_perm_iff (fun e : Str × Str => matchLength host path e.1) Prod.snd acl "NONE".toList v
  have hcompiles : Compiles host path acl → ∀ acl' : List (Str × Str), acl'.Perm acl → Compiles host path acl' :=
    fun h acl' hperm e he => h e (hperm.mem_iff.mp he)
  constructor
  · intro h
    -- a key that does not compile stops the search in every order, so one order shows that all compile
    have hall := compiles_of_bestMatch (h acl (List.Perm.refl _))
    obtain ⟨houtranks, hfound⟩ := hscan.mp fun acl' hperm =>
      Except.ok.inj ((bestMatch_eq (hcompiles hall acl' hperm) 0 _).symm.trans (h acl' hperm))
    exact ⟨hall, houtranks, hfound⟩
  · rintro ⟨hall, houtranks, hfound⟩ acl' hperm
    rw [bestMatch_eq (hcompiles hall acl' hperm), hscan.mpr ⟨houtranks, hfound⟩ acl' hperm]

/-- For an absolute path nothing is asked of the host but the matching. -/
theorem checkSupport_absolute (habs : path.head? = some '/') (acl : List (Str × Str)) (r : HandlerCtx)
    (s : HandlerState) : checkSupport (some path) acl r s =
      (Outcome.ofExcept (bestMatch r.host path acl 0 "NONE".toList), s) := by
  unfold checkSupport
  rw [bind_run_done (show (ofExcept (pathArg (some path)) : Handler Str) r s = (.done path, s) from rfl),
    if_neg (not_not_intro habs)]
  show (ask >>= fun r : HandlerCtx => ofExcept (bestMatch r.host path acl 0 "NONE".toList) : Handler Str) r s = _
  rw [bind_run_done ask_run]
  cases bestMatch r.host path acl 0 "NONE".toList <;> rfl

/-- The value is that of the nearest directory, in whatever order the configuration has its entries, if and only if
that value outranks the others. -/
theorem check_support_iff (hacl : IsDirMap acl) (hpath : Normal path) (r : HandlerCtx) (s : HandlerState) :
    (∀ acl' : List (Str × Str), acl'.Perm acl →
        ∃ v, checkSupport (some path) acl' r s = (.done v, s) ∧ MostSpecific acl path v) ↔
      ∃ v, MostSpecific acl path v ∧ Decides r.host acl path v := by
  obtain ⟨v, hv⟩ := mostSpecific_exists acl path
  have hone : ∀ w, MostSpecific acl path w → w = v := fun w hw => mostSpecific_unique hacl hw hv
  constructor
  · intro h
    refine ⟨v, hv, bestMatch_perm_iff.mp fun acl' hperm => ?_⟩
    obtain ⟨w, hrun, hw⟩ := h acl' hperm
    obtain rfl := hone w hw
    rw [checkSupport_absolute hpath.head] at hrun
    cases hbest : bestMatch r.host path acl' 0 "NONE".toList with
    | error e =>
        rw [hbest] at hrun
        cases hrun
    | ok w' =>
        rw [hbest] at hrun
        exact congrArg _ (Outcome.done.inj (congrArg Prod.fst hrun))
  · rintro ⟨w, hw, hdecides⟩ acl' hperm
    refine ⟨w, ?_, hw⟩
    rw [checkSupport_absolute hpath.head, bestMatch_perm_iff.mpr hdecides acl' hperm]
    rfl

/-- A directory within another. -/
def nestedDirs : List (Str × Str) := [("/tmp".toList, "POSIX".toList), ("/tmp/foo".toList, "NFS".toList)]

theorem check_support_iff_nested :
    (∀ acl' : List (Str × Str), acl'.Perm nestedDirs →
        ∃ v, checkSupport (some "/tmp/foo/bar".toList) acl' ⟨plainHost, ⟨none, none, none⟩, 0⟩ .fresh =
            (.done v, .fresh) ∧ MostSpecific nestedDirs "/tmp/foo/bar".toList v) ↔
      ∃ v, MostSpecific nestedDirs "/tmp/foo/bar".toList v ∧ Decides plainHost nestedDirs "/tmp/foo/bar".toList v :=
  check_support_iff ⟨by decide, by decide⟩ (by decide) _ _

/-- What lies beside a directory gets its value when its name begins the same. -/
theorem beside_not_under :
    checkSupport (some "/home2/x".toList) [("/home".toList, "POSIX".toList)] ⟨plainHost, ⟨none, none, none⟩, 0⟩ .fresh =
        (.done "POSIX".toList, .fresh) ∧
      ¬MostSpecific [("/home".toList, "POSIX".toList)] "/home2/x".toList "POSIX".toList := by
  refine ⟨rfl, ?_⟩
  rintro (⟨dir, hdir, hunder, -⟩ | ⟨hnone, -⟩)
  · obtain rfl : dir = "/home".toList := (Prod.mk.inj (List.mem_singleton.mp hdir)).1
    exact absurd hunder (by decide)
  · exact absurd hnone (by decide)

/-- A directory without special characters. -/
def Literal (dir : Str) : Prop := ∀ c ∈ dir, c ∉ ".^$*+?\x7b\x7d[]\\|()".toList

/-- Of directories without special characters, each of which matches its own text, only those can decide wrongly that
the path begins with without being under them. -/
theorem decides_literal_iff (hacl : IsDirMap acl) (hpath : Normal path)
    (hmatch : ∀ dir, Literal dir →
      host.reMatch ('^' :: dir) path = .ok (if dir <+: path then some dir.length else none))
    (hliteral : ∀ e ∈ acl, Literal e.1) (hv : MostSpecific acl path v) :
    Decides host acl path v ↔ ∀ e ∈ acl, e.1 <+: path → ¬Under e.1 path → e.2 ≠ v →
      ∃ e' ∈ acl, e'.2 = v ∧ e'.1 <+: path ∧ e.1.length < e'.1.length := by
  have hlength : ∀ e ∈ acl, matchLength host path e.1 = if e.1 <+: path then e.1.length else 0 := by
    intro e he
    rw [matchLength, hmatch e.1 (hliteral e he)]
    by_cases htext : e.1 <+: path
    · rw [if_pos htext, if_pos htext]
    · rw [if_neg htext, if_neg htext]
  have hpos : ∀ e ∈ acl, 0 < e.1.length := by
    intro e he
    obtain ⟨rest, hrest⟩ := List.head?_eq_some_iff.mp (hacl.normal e he).head
    rw [hrest]
    exact Nat.succ_pos _
  have hbegins : ∀ e ∈ acl, 0 < matchLength host path e.1 → e.1 <+: path := by
    intro e he hlt
    by_contra hnot
    rw [hlength e he, if_neg hnot] at hlt
    exact Nat.lt_irrefl 0 hlt
  constructor
  · intro h e he htext _ hne
    have hlong := hlength e he
    rw [if_pos htext] at hlong
    obtain ⟨e', he', hvalue, hlt⟩ := h.outranks e he (hlong ▸ hpos e he) hne
    have htext' := hbegins e' he' (Nat.zero_lt_of_lt hlt)
    rw [hlong, hlength e' he', if_pos htext'] at hlt
    exact ⟨e', he', hvalue, htext', hlt⟩
  · intro h
    refine ⟨fun e he => ⟨_, hmatch e.1 (hliteral e he)⟩, ?_, ?_⟩
    · intro e he hlt hne
      have htext := hbegins e he hlt
      have hbetter : ∃ e' ∈ acl, e'.2 = v ∧ e'.1 <+: path ∧ e.1.length < e'.1.length := by
        by_cases hunder : Under e.1 path
        · -- the nearest directory is below this one
          rcases hv with ⟨dir, hdir, hunder', hnearest⟩ | ⟨-, hnone⟩
          · have hle := hnearest e he hunder
            have hnames : (components e.1).length ≠ (components dir).length := by
              intro heq
              have hsame : e.1 = dir := (hacl.normal e he).ext (hacl.normal _ hdir)
                ((List.prefix_of_prefix_length_le hunder hunder' hle).eq_of_length heq)
              rw [← hsame] at hdir
              exact hne (hacl.value_eq he hdir)
            exact ⟨(dir, v), hdir, rfl, hunder'.text (hacl.normal _ hdir) hpath,
              hunder.length_lt (hacl.normal e he) (hacl.normal _ hdir) hunder' (lt_of_le_of_ne hle hnames)⟩
          · exact absurd hunder (hnone e he)
        · exact h e he htext hunder hne
      obtain ⟨e', he', hvalue, htext', hshorter⟩ := hbetter
      refine ⟨e', he', hvalue, ?_⟩
      rw [hlength e he, hlength e' he', if_pos htext, if_pos htext']
      exact hshorter
    · rcases hv with ⟨dir, hdir, hunder, -⟩ | ⟨hnone, -⟩
      · refine Or.inr ⟨(dir, v), hdir, rfl, ?_⟩
        rw [hlength _ hdir, if_pos (hunder.text (hacl.normal _ hdir) hpath)]
        exact hpos _ hdir
      · exact Or.inl hnone

end Support

end UnicoreTsi.Acl
