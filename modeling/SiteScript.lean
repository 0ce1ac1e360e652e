import SiteScript.Main
import SiteScript.Plan.Composition
import SiteScript.Proofs.Compile.Arguments
import SiteScript.Proofs.Compile.CleanScript
import SiteScript.Proofs.Compile.Lookups
import SiteScript.Proofs.Compile.Numbering
import SiteScript.Proofs.Compile.Omission
import SiteScript.Proofs.Compile.Renaming
import SiteScript.Proofs.Compile.Reordering
import SiteScript.Proofs.Link.Exactness
import SiteScript.Proofs.Link.Packing
import SiteScript.Proofs.Recovery.Accounting
import SiteScript.Proofs.Recovery.Completeness
import SiteScript.Proofs.Recovery.Creations
import SiteScript.Proofs.Recovery.Extension
import SiteScript.Proofs.Recovery.Insertions
import SiteScript.Proofs.Recovery.KeptMenus
import SiteScript.Proofs.Recovery.Renaming
import SiteScript.Proofs.Recovery.RoundTrip
import SiteScript.Proofs.Recovery.Runs
import SiteScript.Proofs.Recovery.Spans
import SiteScript.Proofs.Recovery.Targets
import SiteScript.Proofs.Script.Import
import SiteScript.Proofs.Script.RoundTrip
import SiteScript.Proofs.Shell.Literals
import SiteScript.Proofs.Json.NormalForm
import SiteScript.Proofs.Php.Slugs
