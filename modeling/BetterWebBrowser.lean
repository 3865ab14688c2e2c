import BetterWebBrowser.Framework.OrdMap
import BetterWebBrowser.Framework.Transition
import BetterWebBrowser.Framework.Str
import BetterWebBrowser.Framework.BinarySearch
import BetterWebBrowser.Rendering.Checkpoints
import BetterWebBrowser.Http.Revalidation
import BetterWebBrowser.CacheApi.BatchPut
import BetterWebBrowser.Dom.ComposedTree
import BetterWebBrowser.Dom.DocumentOrder
import BetterWebBrowser.Script.ResolvedModules
import BetterWebBrowser.Scheduling.EventOrder
import BetterWebBrowser.Css.Conjunction
import BetterWebBrowser.Layout.GridTermination
import BetterWebBrowser.RendererProtocol.AccessibilityExact
import BetterWebBrowser.RendererProtocol.StorageExact
import BetterWebBrowser.Media.FlacPackets
import BetterWebBrowser.WindowsApp.TabRuns
import BetterWebBrowser.WebmOpus.Playback
import BetterWebBrowser.Css.HasSearch
import BetterWebBrowser.IndexedDb.Generator
import BetterWebBrowser.IndexedDb.Cursors
import BetterWebBrowser.IndexedDb.InlineKeys
import BetterWebBrowser.Storage.Batching
import BetterWebBrowser.Storage.Convergence
import BetterWebBrowser.Storage.Replica
import BetterWebBrowser.Storage.Durable
import BetterWebBrowser.Storage.SessionPaths
import BetterWebBrowser.RendererProtocol.Effect
import BetterWebBrowser.Persistence.Recovery
import BetterWebBrowser.Csp.Serialization
import BetterWebBrowser.RendererInput.Backpressure
import BetterWebBrowser.RendererProcess.FetchAssembly
import BetterWebBrowser.RendererProcess.EventGuarantees
import BetterWebBrowser.Webgl.CaptureRuns
import BetterWebBrowser.Webgl.MirrorRuns
import BetterWebBrowser.Webgl.BufferRuns
import BetterWebBrowser.RendererProcess.FlowCredit
import BetterWebBrowser.IndexedDb.Sessions
import BetterWebBrowser.Cookies.Matching
import BetterWebBrowser.RendererProtocol.DisplayLists
import BetterWebBrowser.RendererProtocol.Messages
import BetterWebBrowser.RendererProtocol.Framing
import BetterWebBrowser.RendererProtocol.RuntimeReading
import BetterWebBrowser.Webgl.CommandBatch
import BetterWebBrowser.Webgl.CommandOrder
import BetterWebBrowser.Webgl.CommandCalls
import BetterWebBrowser.Webgl.CommandLeases
import BetterWebBrowser.Webgl.CommandReplies
import BetterWebBrowser.Webgl.CommandRuns
