import SessionGuard.Proofs.Cli.Requests
import SessionGuard.Proofs.Cli.Shown
import SessionGuard.Proofs.Store.Fields

/-!
# Logins last

A login leaves its token in the session file.  Every later run finds it there, asks the backend for
its user and tells that it has recognized the user, and leaves the disk as it is
(`Run.recalls_of_finds`); so the next run finds the token again.
-/

namespace SessionGuard.Cli

open Backend (Attempt Served)
open Http (Delivery Exchange Request Response)
open SessionFile (Entries tokenKey)

/-- A run of a command, and what becomes of its requests. -/
structure Run where
  surroundings : Surroundings
  options : Options
  command : Command
  replies : List Delivery

namespace Run

/-- The requests of a run on a disk, each with what becomes of it. -/
def transcript (r : Run) (disk : Disk) : List (Request × Delivery) :=
  (r.command.run r.surroundings r.options disk).transcript r.replies

/-- The disk after a run, and its report or failure. -/
def result (r : Run) (disk : Disk) : Ending :=
  (r.command.run r.surroundings r.options disk).result r.replies

/-- The report of a run that has recognized a user by the token. -/
inductive Recognizes (r : Run) (path host tokenPath : String) (token : Token)
    (user : UserProfile) : String → Prop
  | status (hc : r.command = .status) : Recognizes r path host tokenPath token user
      (Report.status (r.surroundings.display r.options.format) path host tokenPath
        (.authenticated user) token.expiry?)
  | visit {screen app} (hc : r.command = .visit screen)
      (h : app.session.state = .authenticated user)
      (hl : Led (Route.ofPath screen) app.history
        (Gate.decide (Route.ofPath screen) (.authenticated user))) :
      Recognizes r path host tokenPath token user
      (Report.visit (r.surroundings.display r.options.format) screen
        (Gate.decide (Route.ofPath screen) (.authenticated user)) app)
  | form {app} (hc : r.command.form?.isSome = true) (h : app.session.state = .authenticated user)
      (hl : app.history.current = .home) : Recognizes r path host tokenPath token user
      (Report.alreadySignedIn (r.surroundings.display r.options.format) r.command.name app)

/-- What a report shows of a user who has been recognized. -/
def Shows (r : Run) (user : UserProfile) (report : String) : Prop :=
  let d := r.surroundings.display r.options.format
  let session := [("status", Json.string "authenticated"), ("user", user.toJson)]
  match r.command with
  | .status =>
    d.Shows "status" session
      (d.tick ++ " Signed in as " ++ d.paint .bold user.displayName ++ " (" ++ user.email ++ ")") report
  | .visit screen =>
    let route := Route.ofPath screen
    d.Shows "visit" [("session", .object session)]
      (visitLine d route (Gate.decide route (.authenticated user))) report
  | command =>
    d.Shows command.name [("user", user.toJson), ("location", routeJson .home)] (alreadyLine d user)
      report

theorem Recognizes.shows {r : Run} {path host tokenPath report : String} {token : Token}
    {user : UserProfile} (h : r.Recognizes path host tokenPath token user report) :
    r.Shows user report := by
  unfold Shows
  cases h with
  | status hc =>
    rw [hc]
    exact (shows_status ..).mono (by simp [SessionState.authenticated, Status.name, userJson])
  | visit hc hstate =>
    rw [hc]
    refine (shows_visit ..).mono ?_
    simp [hstate, SessionState.authenticated, Status.name, userJson]
  | form hc hstate hl =>
    have hshows := shows_alreadySignedIn hstate (r.surroundings.display r.options.format) r.command.name
    rw [hl] at hshows
    generalize r.command = command at hc hshows
    cases command with
    | login | signup | recover | resetPassword => exact hshows
    | _ => cases hc

/-- A run asks for the user of the token and nothing else, recognizes the user, and leaves the disk
as it is. -/
structure Recalls (r : Run) (disk : Disk) (path host tokenPath : String) (token : Token)
    (user : UserProfile) : Prop where
  asks : ∃ request response, r.transcript disk = [(request, .answered response)] ∧
    Backend.request host (.currentUser token) = .ok request ∧ request.method = .get ∧
    Backend.Goes host (.currentUser token) request.url ∧
    request.authorization = some (Http.bearer token.text) ∧
    response.decode UserProfile.ofRaw? = .ok user
  tells : ∃ report, r.result disk = (disk, .ok report) ∧
    r.Recognizes path host tokenPath token user report ∧ r.Shows user report

/-- A run on a disk has the configuration and the host, the token is not known to have expired, and
the backend knows its user. -/
structure Finds (r : Run) (disk : Disk) (path : String) (config : Config) (host : String)
    (token : Token) : Prop where
  configured : loadConfig r.surroundings r.options disk = .ok (path, config)
  host : config.host r.options.host = host
  lasting : config.session.checkExpiry = false ∨ token.isExpired r.surroundings.now = false
  known : ∃ response user rest, r.replies = .answered response :: rest ∧
    response.decode UserProfile.ofRaw? = .ok user

/-- A run starts on the token, and the backend answers its request for the user. -/
structure Opens (r : Run) (disk : Disk) (d : Desk) (token : Token) (request : Request)
    (response : Response) (user : UserProfile) : Prop where
  loaded : Desk.load r.surroundings r.options disk = .ok d
  stored : (Store.file d.tokenPath disk).get? = some token
  lasting : d.settings.checkExpiry = false ∨ token.isExpired d.now = false
  request : Backend.request d.host (.currentUser token) = .ok request
  answered : ∃ rest, r.replies = .answered response :: rest
  named : response.decode UserProfile.ofRaw? = .ok user

section Opens

variable {r : Run} {disk : Disk} {d : Desk} {token : Token} {request : Request}
  {response : Response} {user : UserProfile}

theorem ends_result (r : Run) (disk : Disk) :
    (r.command.run r.surroundings r.options disk).Ends (r.transcript disk) (r.result disk) :=
  Exchange.ends_transcript _ _

/-- A token whose user the backend names is judged with one request. -/
theorem Opens.signedIn (h : r.Opens disk d token request response user) {a b : App}
    {ts us : List (Attempt d.host)} {verdict : Option UserProfile}
    (hr : a.Resolves d.settings d.now ts verdict b) (ha : a.store = d.app.store)
    (hsent : r.transcript disk = Attempt.sent (ts ++ us)) :
    verdict = some user ∧ Attempt.sent ts = [(request, .answered response)] ∧
      b.session.state = .authenticated user ∧ b.store = .file d.tokenPath disk := by
  have hstore : a.store = .file d.tokenPath disk := ha.trans (Desk.store_of_load h.loaded)
  have hget : a.store.get? = some token := hstore ▸ h.stored
  rcases hr.asked with ⟨-, -, hno⟩ | ⟨token', t, hheld, rfl, hc, hv⟩
  · exact absurd ⟨hget, h.lasting⟩ (hno token)
  · obtain rfl : token = token' := Option.some.inj (hget.symm.trans hheld.1)
    cases t with
    | unmade call e he =>
      obtain rfl : call = .currentUser token := hc
      exact nomatch he.symm.trans h.request
    | made call request' hr' delivery =>
      obtain rfl : call = .currentUser token := hc
      obtain rfl : request' = request := Except.ok.inj (hr'.symm.trans h.request)
      obtain ⟨rest, hreplies⟩ := h.answered
      rw [transcript, hreplies] at hsent
      obtain rfl : delivery = .answered response :=
        Exchange.delivery_eq_of_transcript (hsent.trans (Attempt.sent_cons _ _))
      obtain rfl : verdict = some user :=
        (hv user).2 ⟨_, response, rfl, Backend.isSuccess_of_decode h.named, h.named⟩
      exact ⟨rfl, rfl, hr.judged.state, (hr.judged.kept rfl).trans hstore⟩

theorem Opens.recalls (h : r.Opens disk d token request response user) {report : String}
    (hsent : r.transcript disk = [(request, .answered response)])
    (hresult : r.result disk = (disk, .ok report))
    (hreport : r.Recognizes d.configPath d.host d.tokenPath token user report) :
    r.Recalls disk d.configPath d.host d.tokenPath token user :=
  ⟨⟨request, response, hsent, h.request, (Backend.method_eq_get_iff h.request).2 ⟨token, rfl⟩,
    Backend.goes_of_request h.request, (Backend.authorization_eq_bearer_iff h.request _).2 rfl,
    h.named⟩, report, hresult, hreport, hreport.shows⟩

theorem Opens.recalls_status (h : r.Opens disk d token request response user)
    (hc : r.command = .status) : r.Recalls disk d.configPath d.host d.tokenPath token user := by
  have hends := r.ends_result disk
  rw [hc] at hends
  obtain ⟨ts, verdict, b, hsent, hr, hresult⟩ := ends_status h.loaded hends
  obtain ⟨rfl, hone, hstate, hstore⟩ :=
    h.signedIn hr rfl (hsent.trans (by rw [List.append_nil]))
  refine h.recalls (hsent.trans hone) ?_ (.status hc)
  rw [hresult, hstate]
  simp only [Desk.disk, App.tokenExpiry?, hstore, h.stored, Option.bind_some]
  rfl

theorem Opens.recalls_visit (h : r.Opens disk d token request response user) {screen : String}
    (hc : r.command = .visit screen) :
    r.Recalls disk d.configPath d.host d.tokenPath token user := by
  have hends := r.ends_result disk
  rw [hc] at hends
  obtain ⟨ts, verdict, b, hsent, hr, hresult⟩ := ends_visit h.loaded hends
  obtain ⟨rfl, hone, hstate, hstore⟩ :=
    h.signedIn hr rfl (hsent.trans (by rw [List.append_nil]))
  have happ : (b.evaluate (Route.ofPath screen)).2.session.state = .authenticated user := by
    rw [App.session_evaluate, hstate]
  have hhistory : b.history = (History.starting .landing).apply (.navigate (Route.ofPath screen)) := by
    rw [hr.history, Desk.app_of_load h.loaded]
    rfl
  have hled := led_evaluate hhistory (by rw [hstate]; rfl)
  rw [hstate] at hled
  refine h.recalls (hsent.trans hone) ?_ (.visit hc happ hled)
  rw [hresult]
  simp only [Desk.disk, App.store_evaluate, hstore]
  rfl

theorem Opens.recalls_form (h : r.Opens disk d token request response user)
    {fill : Except Failure Operation} (hf : r.command.form? = some fill) :
    r.Recalls disk d.configPath d.host d.tokenPath token user := by
  have hends := r.ends_result disk
  obtain ⟨screen, report, hscreen, hrun, -⟩ :=
    exists_run_eq_withForm hf r.surroundings r.options disk
  rw [hrun] at hends
  obtain ⟨ts, us, verdict, b, hsent, hr, hrest⟩ := ends_withForm h.loaded hscreen hends
  obtain ⟨rfl, hone, -⟩ := h.signedIn hr rfl hsent
  rcases hrest with ⟨_, ⟨⟩, rfl, app, happ, hled, hresult⟩ | ⟨⟨⟩, -⟩
  rw [List.append_nil, hone] at hsent
  exact h.recalls hsent hresult (.form (by rw [hf]; rfl) happ hled.2)

end Opens

/-- A run that finds the token recalls its user. -/
theorem recalls_of_finds {r : Run} {disk : Disk} {path : String} {config : Config} {host : String}
    {token : Token} {request : Request}
    (hget : (Store.file (config.tokenPath path) disk).get? = some token)
    (hreq : Backend.request host (.currentUser token) = .ok request)
    (hjudges : r.command.judges = true) (h : r.Finds disk path config host token) :
    ∃ user, r.Recalls disk path host (config.tokenPath path) token user := by
  obtain ⟨d, hd, rfl, hhost, htoken, hcheck, hnow⟩ := Desk.load_of_loadConfig h.configured
  obtain ⟨response, user, rest, hreplies, hnamed⟩ := h.known
  obtain rfl : d.host = host := hhost.trans h.host
  rw [← htoken] at hget ⊢
  have hopens : r.Opens disk d token request response user :=
    ⟨hd, hget, by rw [hcheck, hnow]; exact h.lasting, hreq, ⟨rest, hreplies⟩, hnamed⟩
  refine ⟨user, ?_⟩
  rcases cases_of_judges hjudges with hc | ⟨screen, hc⟩ | ⟨fill, hf⟩
  · exact hopens.recalls_status hc
  · exact hopens.recalls_visit hc
  · exact hopens.recalls_form hf

end Run

/-! ## Runs, one after the other -/

/-- The disk after runs. -/
def afterRuns (disk : Disk) (runs : List Run) : Disk := runs.foldl (fun d r => (r.result d).1) disk

/-- What a run is to a member whose token is in the session file: it shows the screens that there
are, or it recalls the user. -/
def Run.Serves (r : Run) (disk : Disk) (path host tokenPath : String) (token : Token) : Prop :=
  (r.command = .routes ∧ r.transcript disk = [] ∧
      r.result disk = (disk, .ok (Report.routes (r.surroundings.display r.options.format)))) ∨
    (r.command ≠ .routes ∧ ∃ user, r.Recalls disk path host tokenPath token user)

section Serves

variable {disk : Disk} {path tokenPath host : String} {token : Token}

theorem Run.serves_of_finds {r : Run} {config : Config} {request : Request}
    (hget : (Store.file (config.tokenPath path) disk).get? = some token)
    (hreq : Backend.request host (.currentUser token) = .ok request)
    (h : r.command = .routes ∨ r.command.judges = true ∧ r.Finds disk path config host token) :
    r.Serves disk path host (config.tokenPath path) token := by
  rcases h with hc | ⟨hjudges, hfinds⟩
  · refine .inl ⟨hc, ?_, ?_⟩
    · rw [Run.transcript, hc]
      rfl
    · rw [Run.result, hc]
      rfl
  · have hc : r.command ≠ .routes := by
      intro hc
      rw [hc] at hjudges
      cases hjudges
    exact .inr ⟨hc, Run.recalls_of_finds hget hreq hjudges hfinds⟩

theorem Run.Serves.kept {r : Run} (h : r.Serves disk path host tokenPath token) :
    (r.result disk).1 = disk := by
  rcases h with ⟨-, -, h⟩ | ⟨-, user, -, report, h, -⟩ <;> rw [h]

/-- Where each run leaves the disk as it is, they all do. -/
theorem afterRuns_eq {runs : List Run} (h : ∀ r ∈ runs, r.Serves disk path host tokenPath token) :
    afterRuns disk runs = disk := by
  induction runs with
  | nil => rfl
  | cons r runs ih =>
    have hkept : afterRuns disk (r :: runs) = afterRuns disk runs :=
      congrArg (fun d => afterRuns d runs) (h r List.mem_cons_self).kept
    rw [hkept]
    exact ih fun r hr => h r (List.mem_cons_of_mem _ hr)

end Serves

/-! ## What a login leaves -/

variable {s : Surroundings} {o : Options} {disk disk' : Disk} {d : Desk}

theorem exists_login_of_form {email password : Option String} {op : Operation}
    (hf : (Command.login email password).form? = some (.ok op)) : ∃ c, op = .login c := by
  cases email <;> cases password <;> cases hf
  exact ⟨_, rfl⟩

/-- A login that ends well has stored the token that has been granted. -/
theorem exists_entries_of_signIn {a b : App} {path : String} {token : Token} {user : UserProfile}
    (ha : a.store = .file path disk) (h : a.signIn token user = .ok b) :
    ∃ after entries, b.store = .file path after ∧
      after.entry path = .ok (.file (Yaml.render entries).toUTF8 .ownerOnly) ∧
      Sorted.get? tokenKey entries = some (.string token.text) := by
  unfold App.signIn at h
  rw [ha] at h
  simp only [Store.set] at h
  cases hs : Store.setFile disk path token with
  | error e => rw [hs] at h; cases h
  | ok after =>
    rw [hs] at h
    cases h
    exact ⟨after, _, rfl, Store.entry_save hs, Sorted.get?_insert_self _ _ _⟩

/-- A request that posts is none for a user, so it is among the attempts after those. -/
theorem exists_attempt_of_post {ts us : List (Attempt d.host)} {r : Request} {delivery : Delivery}
    (husers : ∀ t ∈ ts, ∃ token, t.call = .currentUser token)
    (h : (r, delivery) ∈ Attempt.sent (ts ++ us)) (hmethod : r.method = .post) :
    ∃ t ∈ us, t.sent? = some (r, delivery) ∧ ∀ token, t.call ≠ .currentUser token := by
  obtain ⟨t, ht, hs⟩ := List.mem_filterMap.1 h
  have hnew : ∀ token, t.call ≠ .currentUser token := by
    intro token hc
    have hget := (t.faithful.reads r delivery hs).2 ⟨token, hc⟩
    rw [hmethod] at hget
    cases hget
  rcases List.mem_append.1 ht with ht | ht
  · obtain ⟨token, hc⟩ := husers t ht
    exact absurd hc (hnew token)
  · exact ⟨t, ht, hs, hnew⟩

/-- A login that is served without an error has stored the token of the answer to its post, and has
asked for the user of that token. -/
theorem stores_of_served_login {c : Credentials} {a b : App} {us : List (Attempt d.host)}
    {outcome : Outcome} {path : String} {r : Request} {response : Response} {access : AccessToken}
    {t : Attempt d.host}
    (h : Served d.settings d.host (a.start d.settings d.now (.login c)) us (b, .finished outcome))
    (ho : outcome.error? = none) (ha : a.store = .file path disk) (ht : t ∈ us)
    (hs : t.sent? = some (r, .answered response)) (hnew : ∀ token, t.call ≠ .currentUser token)
    (hgranted : response.decode AccessToken.ofRaw? = .ok access) :
    (∃ after entries, b.store = .file path after ∧
      after.entry path = .ok (.file (Yaml.render entries).toUTF8 .ownerOnly) ∧
      Sorted.get? tokenKey entries = some (.string access.token.text)) ∧
    ∃ request, Backend.request d.host (.currentUser access.token) = .ok request := by
  obtain ⟨t₁, t₂, access', user, a', b', rfl, -, hb, hc', ⟨r', response', hs', -⟩, ha', hsign, rfl,
    rfl⟩ := Backend.signIn_of_served_login h ho
  have haccess : access' = access := by
    simp only [List.mem_cons, List.not_mem_nil, or_false] at ht
    rcases ht with rfl | rfl
    · exact hb.unique hs hgranted
    · exact absurd hc' (hnew _)
  subst haccess
  have hstored := exists_entries_of_signIn (ha'.trans ha) hsign
  exact ⟨hstored, r', hc' ▸ Attempt.request_of_sent? hs'⟩

/-- A login that is granted a token and ends well has stored it, and its user has been asked for. -/
theorem login_leaves_token {email password : Option String} {sent : List (Request × Delivery)}
    {report : String} {r : Request} {response : Response} {access : AccessToken}
    (hd : Desk.load s o disk = .ok d)
    (h : ((Command.login email password).run s o disk).Ends sent (disk', .ok report))
    (hpost : (r, .answered response) ∈ sent) (hmethod : r.method = .post)
    (hgranted : response.decode AccessToken.ofRaw? = .ok access) :
    (∃ entries, disk'.entry d.tokenPath =
        .ok (.file (Yaml.render entries).toUTF8 .ownerOnly) ∧
      Sorted.get? tokenKey entries = some (.string access.token.text)) ∧
    ∃ request, Backend.request d.host (.currentUser access.token) = .ok request := by
  obtain ⟨fill, hf⟩ : ∃ fill, (Command.login email password).form? = some fill := ⟨_, rfl⟩
  obtain ⟨screen, told, hscreen, hrun, htold⟩ := exists_run_eq_withForm hf s o disk
  rw [hrun] at h
  obtain ⟨ts, us, verdict, b, rfl, hr, hrest⟩ := ends_withForm hd hscreen h
  obtain ⟨t, hus, hs, hnew⟩ :=
    exists_attempt_of_post (judges_of_resolves hd hr rfl).unrepeated.2 hpost hmethod
  obtain ⟨before, hbefore, -⟩ := hr.store_eq (Desk.store_of_load hd)
  generalize hending : (disk', (Except.ok report : Except Failure String)) = ending at hrest
  rcases hrest with ⟨user, -, rfl, -⟩ | ⟨rfl, hfilled⟩
  · cases hus
  cases hfilled with
  | lacking => cases hus
  | @performed op _ c progress hfill hserved =>
    subst hfill
    obtain ⟨credentials, rfl⟩ := exists_login_of_form hf
    obtain ⟨hdisk, htext⟩ := Prod.ext_iff.1 hending
    cases progress with
    | waiting on => cases htext
    | finished outcome =>
      obtain ⟨⟨after, entries, hafter, hentry, hget⟩, hrequest⟩ :=
        stores_of_served_login hserved (htold _ _ _ htext.symm) hbefore hus hs hnew hgranted
      have hdisk' : disk' = after := by
        refine hdisk.trans ?_
        simp only [Desk.disk, hafter]
        rfl
      exact ⟨⟨entries, hdisk' ▸ hentry, hget⟩, hrequest⟩

/-- A text that is not empty is read from the session file as the token, if the file's text stands for
it. -/
theorem get?_of_entry {path : String} {entries : Entries} {token : Token}
    (hentry : disk.entry path = .ok (.file (Yaml.render entries).toUTF8 .ownerOnly))
    (hread : (SessionFile.decode? (Yaml.render entries)).bind (Sorted.get? tokenKey) =
      some (.string token.text))
    (hne : token.text ≠ "") : (Store.file path disk).get? = some token := by
  obtain ⟨read, hdecode, hget⟩ := Option.bind_eq_some_iff.1 hread
  simp only [Store.get?, Store.entries?_of_entry hentry (System.mayRead_ownerOnly _), hdecode,
    Option.bind_some, Store.tokenOf?, hget]
  simp [hne]

/-- After a login that has been granted a token, each run with the same configuration and host leaves
the disk as it is; as long as the token is not known to have expired and the backend knows its user,
each asks for that user, and for nothing else, and recognizes the user.  A session file that holds
other entries too has to be read again as far as the token. -/
theorem login_survives_restarts {email password : Option String} {path : String} {config : Config}
    {replies : List Delivery} {report : String} {r : Request} {response : Response}
    {access : AccessToken} {runs : List Run}
    (hconfig : loadConfig s o disk = .ok (path, config))
    (hlogin : ((Command.login email password).run s o disk).result replies = (disk', .ok report))
    (hpost : (r, .answered response) ∈
      ((Command.login email password).run s o disk).transcript replies)
    (hmethod : r.method = .post) (hgranted : response.decode AccessToken.ofRaw? = .ok access)
    (hne : access.token.text ≠ "")
    (hread : ∀ entries, disk'.entry (config.tokenPath path) =
        .ok (.file (Yaml.render entries).toUTF8 .ownerOnly) →
      Sorted.get? tokenKey entries = some (.string access.token.text) →
      entries ≠ [(tokenKey, .string access.token.text)] →
      (SessionFile.decode? (Yaml.render entries)).bind (Sorted.get? tokenKey) =
        some (.string access.token.text))
    (hruns : ∀ run ∈ runs, run.command = .routes ∨ run.command.judges = true ∧
      run.Finds disk' path config (config.host o.host) access.token) :
    afterRuns disk' runs = disk' ∧
      ∀ before run later, runs = before ++ run :: later →
        afterRuns disk' before = disk' ∧
        run.Serves (afterRuns disk' before) path (config.host o.host) (config.tokenPath path)
          access.token := by
  obtain ⟨d, hd, hpath, hhost, htokenPath, -⟩ := Desk.load_of_loadConfig hconfig
  have hends := ((Command.login email password).run s o disk).ends_transcript replies
  rw [hlogin] at hends
  obtain ⟨⟨entries, hentry, hget⟩, request, hreq⟩ :=
    login_leaves_token hd hends hpost hmethod hgranted
  rw [htokenPath] at hentry
  rw [hhost] at hreq
  have htext : (SessionFile.decode? (Yaml.render entries)).bind (Sorted.get? tokenKey) =
      some (.string access.token.text) := by
    by_cases hentries : entries = [(tokenKey, .string access.token.text)]
    · rw [hentries, SessionFile.decode?_render_token, ← hentries]
      exact hget
    · exact hread entries hentry hget hentries
  have htoken := get?_of_entry hentry htext hne
  have hserves : ∀ run ∈ runs, run.Serves disk' path (config.host o.host) (config.tokenPath path)
      access.token := fun run hrun => Run.serves_of_finds htoken hreq (hruns run hrun)
  refine ⟨afterRuns_eq hserves, ?_⟩
  rintro before run later rfl
  have hbefore : afterRuns disk' before = disk' :=
    afterRuns_eq fun run' hrun' => hserves run' (List.mem_append_left _ hrun')
  rw [hbefore]
  exact ⟨rfl, hserves run (by simp)⟩

/-- A guest logs in, and is known when asking for the session, for a screen and for an account. -/
theorem login_survives_three_restarts :
    let s : Surroundings := ⟨none, false, 0, ""⟩
    let o : Options := ⟨.json, some "config.yaml", none⟩
    let granted : Response := ⟨200, some "\x7b\"access_token\": \"tok\"\x7d".toUTF8.toList⟩
    let known : Response := ⟨200, some "\x7b\"id\": \"u1\", \"email\": \"a@b.com\"\x7d".toUTF8.toList⟩
    let before : Disk := { entries := [], current := [] }
    let login := (Command.login (some "a@b.com") (some "pw")).run s o before
    let run (command : Command) : Run := ⟨s, o, command, [.answered known]⟩
    let signup := run (.signup "a@b.com" none none)
    ∃ disk report, login.result [.answered granted, .answered known] = (disk, .ok report) ∧
      afterRuns disk [run .status, run (.visit "/settings"), signup] = disk ∧
      signup.Serves (afterRuns disk [run .status, run (.visit "/settings")]) "config.yaml"
        Config.defaultHost "session.yaml" ⟨"tok"⟩ := by
  intro s o granted known before login run signup
  have hconfig : loadConfig s o before = .ok ("config.yaml", .default) := by decide +kernel
  have hok : (login.result [.answered granted, .answered known]).2.isOk = true := by decide +kernel
  have hentry : (login.result [.answered granted, .answered known]).1.entry "session.yaml" =
      .ok (.file "access_token: tok\n".toUTF8 .ownerOnly) := by decide +kernel
  have hconfig' : loadConfig s o (login.result [.answered granted, .answered known]).1 =
      .ok ("config.yaml", .default) := by decide +kernel
  have hhost : Config.default.host o.host = Config.defaultHost := by decide +kernel
  have hpath : Config.default.tokenPath "config.yaml" = "session.yaml" := by decide +kernel
  have hlasting : Token.isExpired ⟨"tok"⟩ 0 = false := by decide +kernel
  have hmethod : (login.requests []).head?.map (·.method) = some .post := by decide +kernel
  have hgranted : granted.decode AccessToken.ofRaw? = .ok ⟨⟨"tok"⟩, "bearer"⟩ := by decide +kernel
  have hknown : known.decode UserProfile.ofRaw? = .ok ⟨"u1", "a@b.com", none, true, false⟩ := by
    decide +kernel
  have hdecode : (SessionFile.decode? "access_token: tok\n").bind (Sorted.get? tokenKey) =
      some (.string "tok") := by decide +kernel
  obtain ⟨r, hpost, hpost'⟩ : ∃ r, (r, .answered granted) ∈
      login.transcript [.answered granted, .answered known] ∧ r.method = .post := by
    generalize login = e at hmethod ⊢
    cases e with
    | done => cases hmethod
    | send r next => exact ⟨r, List.mem_cons_self, by simpa [Exchange.requests] using hmethod⟩
  cases hresult : login.result [.answered granted, .answered known] with
  | mk disk ending =>
    rw [hresult] at hok hentry hconfig'
    cases ending with
    | error e => cases hok
    | ok report =>
      have hread : ∀ entries, disk.entry (Config.default.tokenPath "config.yaml") =
          .ok (.file (Yaml.render entries).toUTF8 .ownerOnly) →
          Sorted.get? tokenKey entries = some (.string "tok") →
          entries ≠ [(tokenKey, .string "tok")] →
          (SessionFile.decode? (Yaml.render entries)).bind (Sorted.get? tokenKey) =
            some (.string "tok") := by
        intro entries hrender _ _
        rw [hpath] at hrender
        have htext : Yaml.render entries = "access_token: tok\n" := by
          have := hentry.symm.trans hrender
          simp only [Except.ok.injEq, Entry.file.injEq, and_true] at this
          exact (String.toByteArray_inj.1 this).symm
        rw [htext, hdecode]
      have hruns : ∀ r ∈ [run .status, run (.visit "/settings"), signup],
          r.command = .routes ∨ r.command.judges = true ∧
            r.Finds disk "config.yaml" .default (Config.default.host o.host) ⟨"tok"⟩ := by
        have hfinds (command : Command) : (run command).Finds disk "config.yaml" .default
            (Config.default.host o.host) ⟨"tok"⟩ :=
          ⟨hconfig', rfl, .inr hlasting, known, _, [], rfl, hknown⟩
        intro r hr
        simp only [List.mem_cons, List.not_mem_nil, or_false] at hr
        rcases hr with rfl | rfl | rfl <;> exact .inr ⟨rfl, hfinds _⟩
      obtain ⟨hkept, hserves⟩ := login_survives_restarts hconfig hresult hpost hpost' hgranted
        (by decide) hread hruns
      have hserves := (hserves [run .status, run (.visit "/settings")] signup [] rfl).2
      rw [hhost, hpath] at hserves
      exact ⟨disk, report, rfl, hkept, hserves⟩

end SessionGuard.Cli
