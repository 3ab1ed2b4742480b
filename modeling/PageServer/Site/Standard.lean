import PageServer.Site.Basic

/-! # The site of the program

Besides its files, the program serves a page that tells that it is up, and a worker that counts the
visits of a session.
-/

namespace PageServer.Site

def health : Handler :=
  .ofActions [.setMediaType "text/plain", .write (Text.encode "ok\n")]

/-- The number of visits before this one. What is not a number counts as none. -/
def earlierVisits : Except ServerError Reply → Nat
  | .ok (.text text) => (Decimal.readNatural? (Nat.pow 2 64) text.toList).getD 0
  | _ => 0

/-- Counts a visit and tells the count. A count past 64 bits cannot be kept. -/
def visits : Handler :=
  .perform (.attribute "visits") fun found =>
    let count := earlierVisits found + 1
    if Nat.pow 2 64 ≤ count then .crash
    else .ofActions
      [.setAttribute "visits" (toString count), .setMediaType "text/plain",
        .write (Text.encode s!"visits: {count}\n")]

def standard (settings : Settings) (files : FileTree) : Site :=
  (({ settings, files } : Site).route "/health" health).worker "visits" visits

end PageServer.Site
