import SystemDetection.Gear.CpuMeaning
import SystemDetection.Gear.Lifecycle
import SystemDetection.Gear.ScoreRaces
import SystemDetection.Memory.WriteFrame
import SystemDetection.Offline.Containment
import SystemDetection.Offline.Verdict
import SystemDetection.Patches.Atomicity
import SystemDetection.Patches.ConfigComments
import SystemDetection.Patches.Exactness
import SystemDetection.Patches.NoBlinking
import SystemDetection.Patches.PageRun
import SystemDetection.Patches.Rediscovery
import SystemDetection.Patches.ReportLines
import SystemDetection.Patches.RunReport
import SystemDetection.Patches.Transfer
import SystemDetection.Patches.WriteTrace
import SystemDetection.Runtime.Linearized
import SystemDetection.Runtime.PatchedStartup
import SystemDetection.Sigscan.Layout
import SystemDetection.Sigscan.Walkers
