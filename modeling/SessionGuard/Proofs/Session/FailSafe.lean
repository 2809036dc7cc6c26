import SessionGuard.Proofs.Session.Verdict
import SessionGuard.Proofs.Store.Uses

/-!
# A store that cannot be written fails safe

A token that cannot be set changes no file but that of the store, and this one only once it has been
opened (`Store.Missed`); a sign-in with it leaves the session and its validations as they were
(`failsSafe_of_signIn`).  A token that is cleared is gone, unless its file clings to it for one of the
reasons of `Store.Clung`.
-/

namespace SessionGuard

open SessionFile (Entries tokenKey)

namespace Store

variable {disk : Disk} {path : String}

/-! ## Tokens that are cleared -/

/-- Why the file of a store may give a token after a clear: the token is stuck there, and nothing has
changed; the text of the other entries does not stand for them; or the file has been opened and is left
with a part of that text. -/
inductive Clung (path : String) (disk : Disk) : Prop
  | stuck (h : Stuck disk path) (hkept : (file path disk).clear = file path disk)
  | misread {entries : Entries} (he : entries? disk path = some entries)
      (hread : ¬ SessionFile.ReadsBack (Sorted.erase tokenKey entries))
  | broken (h : Breaks path disk (.write .clear))

/-- A token that is cleared is gone, unless the file clings to it. -/
theorem get?_clear_or_clung (path : String) (disk : Disk) :
    (file path disk).clear.get? = none ∨ Clung path disk := by
  by_cases hbreaks : Breaks path disk (.write .clear)
  · exact .inr (.broken hbreaks)
  rcases get?_clear (file path disk) with hnone | ⟨_, _, entries, hs, he, hkeeps⟩
  · exact .inl hnone
  cases hs
  cases hput : Write.clear.puts? (entries? disk path) with
  | none =>
    have hv : Sorted.get? tokenKey entries = none := by simpa [he, Write.puts?] using hput
    left
    rw [clear_of_get?_eq_none he hv]
    simp only [get?, he, Option.bind_some, tokenOf?_of_get?_eq_none hv]
  | some put =>
    have hput' : put = Sorted.erase tokenKey entries := by
      rw [he] at hput
      exact Write.eq_leaves_of_puts? hput
    subst hput'
    cases hs : save disk path (Sorted.erase tokenKey entries) with
    | ok disk' =>
      refine .inr (.misread he fun hback => hkeeps ⟨disk', hs, ?_⟩)
      obtain ⟨text, hencode, -⟩ := save_eq_ok_iff.1 hs
      rw [entries?_save hs, ← eq_render_of_encode hencode, hback text hencode]
    | error f =>
      obtain ⟨hleft, hwhy⟩ := left_of_clear hput hs hbreaks
      have hclear := clear_of_save_error hput hs
      rw [hleft] at hclear
      refine .inr (.stuck (hwhy.resolve_left fun hnone => ?_) hclear)
      cases he.symm.trans hnone

end Store

namespace Machine

variable {settings : Settings} {m n : Machine} {id : Nat} {token : Token} {user : UserProfile}
  {failed : Failed StoreError Store}

/-! ## Machines that go on alike -/

/-- Two machines differ in nothing but what has ended. -/
structure GoesOnAs (m n : Machine) : Prop where
  app : m.app = n.app
  waiting : m.waiting = n.waiting

theorem GoesOnAs.find? (h : m.GoesOnAs n) (id : Nat) : m.find? id = n.find? id := by
  simp only [Machine.find?, h.waiting]

theorem GoesOnAs.step (h : m.GoesOnAs n) (settings : Settings) (e : Event) :
    (m.step settings e).GoesOnAs (n.step settings e) := by
  have hadvance (id : Nat) (result : App × Progress) :
      (m.advance id result).GoesOnAs (n.advance id result) := by
    unfold advance
    cases result.2 with
    | waiting on => exact ⟨rfl, by simp only [h.waiting]⟩
    | finished outcome => exact ⟨rfl, by simp only [h.waiting]⟩
  cases e <;> simp only [Machine.step, h.find?, h.app] <;> split <;>
    first
    | exact h
    | exact hadvance _ _
    | exact ⟨rfl, by simp only [h.waiting]⟩

theorem GoesOnAs.run (h : m.GoesOnAs n) (settings : Settings) (es : List Event) :
    (m.run settings es).GoesOnAs (n.run settings es) := by
  induction es generalizing m n with
  | nil => exact h
  | cons e es ih => exact ih (h.step settings e)

/-! ## Sign-ins whose token cannot be stored -/

/-- The outcome of a validation that waits comes to be the state of the session. -/
structure Applies (settings : Settings) (m : Machine) (id : Nat) : Prop where
  found : ∀ user, (m.step settings (.answer id (.user user))).app.session.state = .authenticated user
  failed : ∀ e, (m.step settings (.answer id (.failed e))).app.session.state = .unauthenticated
  late : (m.step settings (.timeout id)).app.session.state = .unauthenticated

/-- A validation of the generation that the session is in applies. -/
theorem applies_of_validating
    (h : m.find? id = some (.validating m.app.session.generation token)) : m.Applies settings id := by
  constructor <;> intros <;>
    simp only [Machine.step, h, app_advance, App.answer, App.timeout, App.finishValidation,
      App.settle, App.endValidation, if_true]

/-- A sign-in ends with the cause for which its token could not be stored.  Only the store is not as it
was: the session, its generation and all that waits are, so a validation applies as before.  Where the
store is as it was too, whatever comes next goes as if nobody had tried. -/
structure FailsSafe (settings : Settings) (m : Machine) (e : Event)
    (failed : Failed StoreError Store) : Prop where
  ends : m.Ends settings e (.stored (.error failed.cause))
  app : (m.step settings e).app = { m.app with store := failed.left }
  waiting : (m.step settings e).waiting = m.waiting
  applies : ∀ id token, m.find? id = some (.validating m.app.session.generation token) →
    (m.step settings e).Applies settings id
  later : failed.left = m.app.store →
    ∀ es, ((m.step settings e).run settings es).GoesOnAs (m.run settings es)

theorem failsSafe_of_signIn (hf : m.find? id = none) (hset : m.app.store.set token = .error failed)
    (now : Int) (user : UserProfile) :
    m.FailsSafe settings (.start id now (.signIn token user)) failed := by
  have hstart : m.app.start settings now (.signIn token user) =
      ({ m.app with store := failed.left }, .finished (.stored (.error failed.cause))) := by
    simp only [App.start, App.signIn, hset]
  have hothers : (m.waiting.filter fun w => w.1 != id) = m.waiting := by
    refine List.filter_eq_self.2 fun w hw => ?_
    rw [find?, Option.map_eq_none_iff, List.find?_eq_none] at hf
    simpa using hf w hw
  have hstep : m.step settings (.start id now (.signIn token user)) =
      { m with
        app := { m.app with store := failed.left }
        finished := m.finished ++ [(id, .stored (.error failed.cause))] } := by
    simp only [Machine.step, hf, hstart, advance, hothers]
  refine ⟨by rw [Ends, hstep, Event.id], by rw [hstep], by rw [hstep], fun v held hv => ?_,
    fun hsame => ?_⟩
  · apply applies_of_validating
    rw [hstep]
    exact hv
  · refine GoesOnAs.run ?_ settings
    rw [hstep, hsame]
    exact ⟨rfl, rfl⟩

end Machine

/-! ## Stores in files -/

/-- A store in a file fails safe, whatever is in the way of the file.  Where a token cannot be set, all
other files are as they were; that of the store is too, and then its answer, or it had been opened and
is left with a part of its text.  A sign-in with that token leaves the session and its validations as
they were.  Once the token has been cleared, also with a sign-out, it is gone, unless the file clings to
it.  The store's answer is a token exactly if the file is there with one and may be read. -/
theorem unwritable_store_fails_safe (disk : Disk) (path : String) (token : Token) :
    let s := Store.file path disk
    (∀ failed, s.set token = .error failed →
      s.Missed token failed.left ∧
      (∃ left, failed.left = .file path left ∧ ∀ l content mode, l ≠ disk.destination path →
        (left.find? l = some (.file content mode) ↔ disk.find? l = some (.file content mode))) ∧
      ∀ (settings : Settings) (m : Machine) (id : Nat) (now : Int) (user : UserProfile),
        m.app.store = s → m.find? id = none →
          m.FailsSafe settings (.start id now (.signIn token user)) failed) ∧
    (s.clear.get? = none ∨ Store.Clung path disk) ∧
    (∀ a : App, a.store = s → a.signOut.session.state = .unauthenticated ∧
      (a.signOut.store.get? = none ∨ Store.Clung path disk)) ∧
    ∀ held, s.get? = some held ↔ ∃ text mode entries,
      disk.entry path = .ok (.file text.toUTF8 mode) ∧ disk.system.mayRead mode = true ∧
        SessionFile.decode? text = some entries ∧
        Sorted.get? tokenKey entries = some (.string held.text) ∧ held.text ≠ "" := by
  intro s
  have hclear : s.clear.get? = none ∨ Store.Clung path disk := Store.get?_clear_or_clung path disk
  refine ⟨fun failed hset => ?_, hclear, ?_, fun _ => Store.get?_eq_some_iff⟩
  · have hmissed : s.Missed token failed.left := Store.missed_of_set hset
    obtain ⟨_, _, left, hs, -, hleft⟩ := Store.set_eq_error hset
    obtain ⟨rfl, rfl⟩ := Store.file.inj (show Store.file path disk = _ from hs)
    refine ⟨hmissed, ⟨left, hleft, fun l content mode hl => ?_⟩, fun settings m id now user hm hf => ?_⟩
    · rw [hleft] at hmissed
      exact hmissed.file_iff_of_ne hl
    · exact Machine.failsSafe_of_signIn hf (by rwa [hm]) now user
  · intro a ha
    exact ⟨rfl, by rwa [App.signOut, ha]⟩

/-- A file is where the directory of the session file should be.  A sign-in fails, and the user whom a
validation finds meanwhile is signed in. -/
theorem unwritable_store_fails_safe_behind_file :
    let settings : Settings := ⟨10000, true, .redirectToLogin⟩
    let user : UserProfile := ⟨"u1", "a@b.com", none, true, false⟩
    let path := "f/session.yaml"
    let disk : Disk := { entries := [(["f"], .file "x".toUTF8 0o644)], current := [] }
    let s := Store.file path disk
    let m : Machine := ⟨⟨⟨.loading, 1, true⟩, s, .starting .landing, []⟩,
      [(0, .validating 1 ⟨"t"⟩)], []⟩
    let n := m.step settings (.start 1 0 (.signIn ⟨"other"⟩ user))
    ∃ failed, s.set ⟨"other"⟩ = .error failed ∧ failed.cause = .file path .alreadyExists ∧
      failed.left.get? = s.get? ∧ n.app.session = m.app.session ∧
      (n.step settings (.answer 0 (.user user))).app.session.state = .authenticated user := by
  intro settings user path disk s m n
  have hcause : ((s.set ⟨"other"⟩).map fun _ => ()).mapError Failed.cause =
      .error (.file path .alreadyExists) := by decide +kernel
  cases hset : s.set ⟨"other"⟩ with
  | ok s' => rw [hset] at hcause; cases hcause
  | error failed =>
    rw [hset] at hcause
    obtain ⟨hsafe, -⟩ := unwritable_store_fails_safe disk path ⟨"other"⟩
    obtain ⟨hmissed, -, hsignIn⟩ := hsafe failed hset
    have hfails := hsignIn settings m 1 0 user rfl rfl
    have hn : n = m.step settings (.start 1 0 (.signIn ⟨"other"⟩ user)) := rfl
    have hget : failed.left.get? = s.get? := by
      generalize failed.left = left at hmissed
      cases hmissed with
      | untouched _ hget => exact hget fun hdots => absurd hdots (by decide +kernel)
      | spoilt hp =>
        have hno : (disk.makeParents path).isOk = false := by decide +kernel
        rw [hp] at hno
        cases hno
    refine ⟨failed, rfl, Except.error.inj hcause, hget, ?_, ?_⟩
    · rw [hn, hfails.app]
    · rw [hn]
      exact (hfails.applies 0 ⟨"t"⟩ rfl).found user

/-- A session file with another entry that cannot be written keeps its token, though it is cleared, and
so does one that may not be written.  Where there is no room for a token that is set, the one before is
gone. -/
theorem cleared_token_may_stay :
    let path := "session.yaml"
    let holding := fun (text : String) (mode : Mode) =>
      ({ entries := [([path], .file text.toUTF8 mode)], current := [] } : Disk)
    let awkward := Store.file path
      (holding "access_token: tok\nother:\n  ? \x7ba: 1\x7d\n  : 2\n" 0o644)
    let fixed := Store.file path (holding "access_token: tok\n" 0o444)
    let full := Store.file path
      { holding "access_token: tok\n" 0o644 with system := { room := fun _ => some 5 } }
    (awkward.clear.get? = some ⟨"tok"⟩ ∧
      (App.starting awkward .landing).signOut.session.state = .unauthenticated ∧
      (App.starting awkward .landing).signOut.store.get? = some ⟨"tok"⟩) ∧
    (fixed.clear.get? = some ⟨"tok"⟩ ∧
      (App.starting fixed .landing).signOut.store.get? = some ⟨"tok"⟩) ∧
    (full.get? = some ⟨"tok"⟩ ∧
      ((full.set ⟨"new"⟩).map fun _ => ()).mapError (fun f => (f.cause, f.left.get?)) =
        .error (.file path .noSpace, none)) := by
  decide +kernel

end SessionGuard
