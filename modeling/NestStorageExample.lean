import NestStorageExample.Text.CodeUnits
import NestStorageExample.Text.Whitespace
import NestStorageExample.Text.Matching
import NestStorageExample.Text.Utf8
import NestStorageExample.Text.TextCodec
import NestStorageExample.Text.Segments
import NestStorageExample.Text.PercentEncoding
import NestStorageExample.Text.HexText
import NestStorageExample.Text.Decimal
import NestStorageExample.Text.Layouts
import NestStorageExample.Text.Json
import NestStorageExample.Text.Base64
import NestStorageExample.Numbers.Double
import NestStorageExample.Numbers.NumberText
import NestStorageExample.Dates.Calendar
import NestStorageExample.Dates.DateTexts
import NestStorageExample.Dates.IsoTexts
import NestStorageExample.Url.Parser
import NestStorageExample.Url.PathText
import NestStorageExample.Url.Appending
import NestStorageExample.Url.WebBase
import NestStorageExample.Url.SearchParams
import NestStorageExample.Url.BehindQuery
import NestStorageExample.Url.FormText
import NestStorageExample.Validation.Schema
import NestStorageExample.Validation.Acceptance
import NestStorageExample.Effects.Async
import NestStorageExample.Collections.InsertionMap
import NestStorageExample.Collections.Recency
import NestStorageExample.Collections.Paging
import NestStorageExample.Collections.PagesRead
import NestStorageExample.Collections.Slices
import NestStorageExample.Text.JsonText
import NestStorageExample.Runs.Guarded
import NestStorageExample.Runs.Loops
import NestStorageExample.Runs.Suspended
import NestStorageExample.Runs.Ledgers
import NestStorageExample.Runs.Gathered
import NestStorageExample.Storage.Service
import NestStorageExample.Storage.ErrorCodes
import NestStorageExample.Storage.Provider
import NestStorageExample.Storage.InMemory
import NestStorageExample.Storage.Observed
import NestStorageExample.Storage.BufferedDownload
import NestStorageExample.Api.Schemas
import NestStorageExample.Api.KeyComposition
import NestStorageExample.Api.ProviderKey
import NestStorageExample.Api.AbortMultipart
import NestStorageExample.Api.PublicUrls
import NestStorageExample.Api.Uploads
import NestStorageExample.Api.UploadSessionStore
import NestStorageExample.Api.UploadProgress
import NestStorageExample.Api.Tenants
import NestStorageExample.Api.TenantClear
import NestStorageExample.Api.MarkerFileScanner
import NestStorageExample.Api.ScanDelivery
import NestStorageExample.Api.ScannerLab
import NestStorageExample.Api.Operations
import NestStorageExample.Api.ClearBeside
import NestStorageExample.Api.Confirm
import NestStorageExample.Api.ConfirmVersions
import NestStorageExample.Api.SignedUrlExpiry
import NestStorageExample.Api.VaultCopy
import NestStorageExample.Api.StorageOptions
import NestStorageExample.Api.ConfigRedactor
import NestStorageExample.Api.StorageConfig
import NestStorageExample.Api.PdfSignature
import NestStorageExample.Api.UploadPipeline
import NestStorageExample.Api.VaultListing
import NestStorageExample.Api.RequestSchemas
import NestStorageExample.Api.RequestAcceptance
import NestStorageExample.Api.VaultDownloads
import NestStorageExample.Api.RangeReads
import NestStorageExample.Api.PreviewVersions
import NestStorageExample.Api.ExistenceProbes
import NestStorageExample.Api.ScopedStorageFactory
import NestStorageExample.Api.TriggerRegistry
import NestStorageExample.Api.MultipartSessions
import NestStorageExample.Api.EnvSchema
import NestStorageExample.Api.VaultInterleavings
import NestStorageExample.Api.Versioning
import NestStorageExample.Web.ApiClient
import NestStorageExample.Web.DirectUpload
import NestStorageExample.Web.PutWithHeaders
import NestStorageExample.Web.VaultBrowser
import NestStorageExample.Web.TextLimit
import NestStorageExample.Web.TextTruncation
import NestStorageExample.Web.MultipartSplit
import NestStorageExample.Web.HexPreview
import NestStorageExample.Web.FolderBreadcrumbs
import NestStorageExample.Web.TenantUpload
import NestStorageExample.Web.Responses
import NestStorageExample.Web.Requests
import NestStorageExample.Web.Wire
import NestStorageExample.Web.VaultQueries
import NestStorageExample.Web.TenantRequests
import NestStorageExample.Web.TtlCountdown
import NestStorageExample.Scripts.ExportLists
import NestStorageExample.Scripts.ExportAudit
import NestStorageExample.Web.HexTab
