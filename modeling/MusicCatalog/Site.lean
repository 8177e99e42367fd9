/-!
# Where a catalog lives

* **`Site`**: the base of the listing and the pages, the base of the downloads, and the name under
  which requests are made;
* `Site.withBaseUrl`, `Site.withDownloadBase`, `Site.withUserAgent`: changes, which drop slashes at
  the end of a base;
* `Site.listingUrl`: the address of the listing;
* `Links`: the addresses made from the name of an audio file.
-/

namespace MusicCatalog

/-- A text without the slashes at its end. -/
def trimSlashes (url : String) : String :=
  String.ofList (url.toList.reverse.dropWhile (· == '/')).reverse

/-- The addresses of a catalog and the name of its client. -/
structure Site where
  baseUrl : String
  downloadBase : String
  userAgent : String
deriving DecidableEq

namespace Site

/-- The public site, unless told otherwise. -/
def standard : Site where
  baseUrl := "https://incompetech.com/music/royalty-free"
  downloadBase := "https://incompetech.com/music/royalty-free/mp3-royaltyfree"
  userAgent := "moodcat/0.1.0"

variable (site : Site)

/-- The site with another base of its listing and pages. -/
def withBaseUrl (url : String) : Site := { site with baseUrl := trimSlashes url }

/-- The site with another base of its downloads. -/
def withDownloadBase (url : String) : Site := { site with downloadBase := trimSlashes url }

/-- The site with another name of the client. -/
def withUserAgent (name : String) : Site := { site with userAgent := name }

/-- The address of the whole listing. -/
def listingUrl : String := site.baseUrl ++ "/pieces.json"

end Site

/-- The bases of the addresses that belong to a piece. -/
structure Links where
  baseUrl : String
  downloadBase : String
deriving DecidableEq

namespace Links

/-- The bases of a site. -/
def ofSite (site : Site) : Links := ⟨site.baseUrl, site.downloadBase⟩

variable (links : Links)

/-- The address of an audio file. -/
def download (filename : String) : String := links.downloadBase ++ "/" ++ filename

/-- The name of a file less `.mp3` at its end, once. -/
def stem (filename : String) : String :=
  let extension := ['.', 'm', 'p', '3']
  let cs := filename.toList
  if extension.isSuffixOf cs then String.ofList (cs.take (cs.length - 4)) else filename

/-- The address of the page about a piece. -/
def page (filename : String) : String := links.baseUrl ++ "/" ++ stem filename

end Links

end MusicCatalog
